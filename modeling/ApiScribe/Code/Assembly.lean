import ApiScribe.Code.Basic

set_option autoImplicit false

/-! # Modules under construction

While a module is put together its parts are shared: a class may stand in several modules, a method
in several classes, and a class may be filled after it was added to a module. An `Assembly` holds
every part once, under a number; owners list the numbers of what was added to them. Reading a class
or a module out of the assembly gives it with all that was added to it by then. -/

namespace ApiScribe.Code

/-- The number of a part among the parts of its kind. -/
abbrev PartId := Nat

/-- A class under construction: its members by number. -/
structure ClassDraft where
  name : String
  exported : Bool
  methods : List PartId := []
  getters : List PartId := []
deriving DecidableEq, Repr

/-- A module under construction: its imports and classes by number. -/
structure ModuleDraft where
  imports : List PartId := []
  classes : List PartId := []
deriving DecidableEq, Repr

/-- All parts, of each kind in the order in which they were made. -/
structure Assembly where
  imports : List Import := []
  methods : List Method := []
  getters : List Getter := []
  classes : List ClassDraft := []
  modules : List ModuleDraft := []
deriving DecidableEq, Repr

/-- The addition of a part to its owner. -/
inductive Addition where
  | ofImport (owner part : PartId)
  | ofClass (owner part : PartId)
  | ofMethod (owner part : PartId)
  | ofGetter (owner part : PartId)
deriving DecidableEq, Repr

namespace Assembly

/-! ## Making and joining parts -/

/-- Adds a part to the end of the list that its owner keeps of its kind. -/
def add (assembly : Assembly) : Addition → Assembly
  | .ofImport owner part =>
    { assembly with modules := assembly.modules.modify owner fun draft =>
        { draft with imports := draft.imports ++ [part] } }
  | .ofClass owner part =>
    { assembly with modules := assembly.modules.modify owner fun draft =>
        { draft with classes := draft.classes ++ [part] } }
  | .ofMethod owner part =>
    { assembly with classes := assembly.classes.modify owner fun draft =>
        { draft with methods := draft.methods ++ [part] } }
  | .ofGetter owner part =>
    { assembly with classes := assembly.classes.modify owner fun draft =>
        { draft with getters := draft.getters ++ [part] } }

/-- Makes an import. -/
def newImport (assembly : Assembly) (part : Import) : PartId × Assembly :=
  (assembly.imports.length, { assembly with imports := assembly.imports ++ [part] })

/-- Makes a method. -/
def newMethod (assembly : Assembly) (part : Method) : PartId × Assembly :=
  (assembly.methods.length, { assembly with methods := assembly.methods ++ [part] })

/-- Makes a getter. -/
def newGetter (assembly : Assembly) (part : Getter) : PartId × Assembly :=
  (assembly.getters.length, { assembly with getters := assembly.getters ++ [part] })

/-- Makes a class without members. -/
def newClass (assembly : Assembly) (name : String) (exported : Bool) : PartId × Assembly :=
  (assembly.classes.length, { assembly with classes := assembly.classes ++ [⟨name, exported, [], []⟩] })

/-- Makes an empty module. -/
def newModule (assembly : Assembly) : PartId × Assembly :=
  (assembly.modules.length, { assembly with modules := assembly.modules ++ [{}] })

/-! ## Giving a part another name -/

/-- Renames a method. -/
def renameMethod (assembly : Assembly) (part : PartId) (name : String) : Assembly :=
  { assembly with methods := assembly.methods.modify part fun method => { method with name } }

/-- Renames a getter. -/
def renameGetter (assembly : Assembly) (part : PartId) (name : String) : Assembly :=
  { assembly with getters := assembly.getters.modify part fun getter => { getter with name } }

/-- Renames a class. -/
def renameClass (assembly : Assembly) (part : PartId) (name : String) : Assembly :=
  { assembly with classes := assembly.classes.modify part fun draft => { draft with name } }

/-! ## Reading parts out -/

/-- A class with its members. -/
def readClass (assembly : Assembly) (draft : ClassDraft) : ClassDecl where
  name := draft.name
  exported := draft.exported
  methods := draft.methods.filterMap fun part => assembly.methods[part]?
  getters := draft.getters.filterMap fun part => assembly.getters[part]?

/-- The class of a number, if there is one. -/
def class? (assembly : Assembly) (part : PartId) : Option ClassDecl :=
  assembly.classes[part]?.map assembly.readClass

/-- The module of a number, if there is one. -/
def module? (assembly : Assembly) (part : PartId) : Option Module :=
  assembly.modules[part]?.map fun draft =>
    { imports := draft.imports.filterMap fun part => assembly.imports[part]?
      classes := draft.classes.filterMap assembly.class? }

/-! ## Entering finished parts -/

/-- Makes a class with all its members. -/
def enterClass (assembly : Assembly) (decl : ClassDecl) : PartId × Assembly :=
  let (owner, assembly) := assembly.newClass decl.name decl.exported
  let assembly := decl.methods.foldl (fun assembly method =>
    let (part, assembly) := assembly.newMethod method
    assembly.add (.ofMethod owner part)) assembly
  let assembly := decl.getters.foldl (fun assembly getter =>
    let (part, assembly) := assembly.newGetter getter
    assembly.add (.ofGetter owner part)) assembly
  (owner, assembly)

/-- Makes a module with all its imports and classes. -/
def enterModule (assembly : Assembly) (unit : Module) : PartId × Assembly :=
  let (owner, assembly) := assembly.newModule
  let assembly := unit.imports.foldl (fun assembly decl =>
    let (part, assembly) := assembly.newImport decl
    assembly.add (.ofImport owner part)) assembly
  let assembly := unit.classes.foldl (fun assembly decl =>
    let (part, assembly) := assembly.enterClass decl
    assembly.add (.ofClass owner part)) assembly
  (owner, assembly)

end Assembly

end ApiScribe.Code
