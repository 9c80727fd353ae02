import ApiScribe.Code.Basic
import ApiScribe.Text.Lines

set_option autoImplicit false

/-! # The text of a client module

Every part is written on its own, and a module is the texts of its imports and classes one after
the other. Inside a class the texts of the members are cut into lines, at every character that any
convention takes for a line break, and each line that is not empty is indented by four spaces. -/

namespace ApiScribe.Code

/-! ## Object literals -/

/-- One entry of an object literal: the key in quotes, the value as it is. -/
def objectEntry (entry : String × String) : String := Text.quoted entry.1 ++ ": " ++ entry.2

/-- An object literal on one line. -/
def objectLiteral (entries : List (String × String)) : String :=
  "\x7b" ++ ", ".intercalate (entries.map objectEntry) ++ "\x7d"

/-! ## Imports -/

/-- What an import binds: the default binding unless it is empty, then the members in braces. -/
def Import.bindings (decl : Import) : List String :=
  (match decl.defaultBinding with
    | some binding => if binding.isEmpty then [] else [binding]
    | none => [])
  ++ (if decl.members.isEmpty then [] else ["\x7b" ++ ", ".intercalate decl.members ++ "\x7d"])

/-- The import statement. -/
def Import.render (decl : Import) : String :=
  "import "
    ++ (if decl.bindings.isEmpty then "" else ", ".intercalate decl.bindings ++ " from ")
    ++ Text.quoted decl.path ++ ";\n"

/-! ## Members of a class -/

/-- The word in front of a public member. -/
def visibility (isPublic : Bool) : String := if isPublic then "public " else ""

/-- An argument in a list of parameters. -/
def parameterText (argument : Argument) : String := argument.name ++ ": " ++ argument.type

/-- An object that passes each argument under its own name. -/
def argumentObject (arguments : List Argument) : String :=
  objectLiteral (arguments.map fun argument => (argument.name, argument.name))

/-- The entries of the request: the address and the verb, then what there is of query and body. -/
def Method.requestEntries (method : Method) : List (String × String) :=
  [("url", Text.quoted method.url), ("method", Text.quoted method.verb)]
    ++ (if method.params.isEmpty then [] else [("params", argumentObject method.params)])
    ++ (if method.data.isEmpty then [] else [("data", argumentObject method.data)])

/-- The method, ending in a line break. -/
def Method.render (method : Method) : String :=
  visibility method.isPublic ++ "async " ++ method.name
    ++ "(" ++ ", ".intercalate (method.arguments.map parameterText) ++ "): Promise<any> \x7b\n"
    ++ "    return axios(" ++ objectLiteral method.requestEntries ++ ");\n\x7d\n"

/-- The getter, ending in a line break. -/
def Getter.render (getter : Getter) : String :=
  visibility getter.isPublic ++ "get " ++ getter.name ++ "() \x7b\n"
    ++ "    return new " ++ getter.target ++ "();\n\x7d\n"

/-! ## Classes and modules -/

/-- A line of a class body: indented by four spaces unless it is empty. -/
def bodyLine (line : List Char) : String :=
  if line.isEmpty then "\n" else "    " ++ String.ofList line ++ "\n"

/-- The text of a member as it stands in a class body. -/
def memberBlock (text : String) : String :=
  String.join ((Text.splitLines text.toList).map bodyLine)

/-- The texts of the members: the methods, then the getters. -/
def ClassDecl.members (decl : ClassDecl) : List String :=
  decl.methods.map Method.render ++ decl.getters.map Getter.render

/-- The line that opens the class. -/
def ClassDecl.header (decl : ClassDecl) : String :=
  (if decl.exported then "export " else "") ++ "class " ++ decl.name ++ " \x7b\n"

/-- The class declaration. -/
def ClassDecl.render (decl : ClassDecl) : String :=
  decl.header ++ String.join (decl.members.map memberBlock) ++ "\x7d\n"

/-- The source text of the module. -/
def Module.render (unit : Module) : String :=
  String.join (unit.imports.map Import.render) ++ String.join (unit.classes.map ClassDecl.render)

end ApiScribe.Code
