import ApiScribe.Client.Options
import ApiScribe.Code.Render
import ApiScribe.Event

set_option autoImplicit false

/-! # Building a client module from a schema

One walk over the tree, every node before its children, builds the module. The schema becomes the
exported root class. An endpoint becomes a method of the class of the node that contains it. A group
becomes a class that is not exported, entered before its children are visited, and a getter in the
class of the node that contains it, named after the key of the group. A foreign node ends the walk.

The classes of a walk are known by their number: a class that is entered gets the number of classes
before it, and members are added to the class of a number. -/

namespace ApiScribe.Client

/-- A node from which no client can be generated, and the key that it stands under. -/
structure Unsupported where
  key : String
  kind : Foreign
deriving DecidableEq, Repr

/-- The wording of the error. -/
def Unsupported.message (e : Unsupported) : String :=
  "Unsupported schema node for " ++ Text.printedMarked e.key ++ ": " ++ e.kind.label

/-! ## Members -/

/-- The fields as arguments, in declared order. -/
def argumentsOf (fields : Option Fields) : List Argument :=
  (fields.getD []).map fun field => ⟨field.1, field.2⟩

/-- The arguments that go into the query: the fields of a GET request. -/
def queryArguments : Request → List Argument
  | .get fields => argumentsOf fields
  | _ => []

/-- The arguments that go into the body: the fields of a POST request. Those of a PUT request are
    not passed on. -/
def bodyArguments : Request → List Argument
  | .post fields => argumentsOf fields
  | _ => []

/-- The method of the endpoint under a key. -/
def methodOf (options : Options) (key : String) (endpoint : Endpoint) : Code.Method where
  url := endpoint.url.getD options.missingUrl
  name := key
  verb := Text.lower endpoint.request.verb
  params := queryArguments endpoint.request
  data := bodyArguments endpoint.request

/-! ## The walk -/

/-- The classes entered so far, and what was told on the way. -/
structure Draft where
  classes : List Code.ClassDecl
  events : List Event

namespace Draft

/-- The name of the class of a number. -/
def className (draft : Draft) (number : Nat) : String :=
  match draft.classes[number]? with
  | some decl => decl.name
  | none => ""

/-- Adds a method to the class of a number. -/
def appendMethod (draft : Draft) (number : Nat) (method : Code.Method) : Draft :=
  { draft with classes := draft.classes.modify number fun decl =>
      { decl with methods := decl.methods ++ [method] } }

/-- Adds a getter to the class of a number. -/
def appendGetter (draft : Draft) (number : Nat) (getter : Code.Getter) : Draft :=
  { draft with classes := draft.classes.modify number fun decl =>
      { decl with getters := decl.getters ++ [getter] } }

/-- Enters a class without members. -/
def openClass (draft : Draft) (name : String) (exported : Bool) : Draft :=
  { draft with classes := draft.classes ++ [⟨name, exported, [], []⟩] }

/-- Tells an event. -/
def tell (draft : Draft) (event : Event) : Draft :=
  { draft with events := draft.events ++ [event] }

end Draft

mutual

/-- Visits the node under a key of the node whose class has the number `owner`. -/
def visit (options : Options) (owner : Nat) (key : String) :
    Node → Draft → Except Unsupported Draft
  | .endpoint endpoint, draft =>
    .ok ((draft.tell (.addedEndpoint endpoint.request.verb key (draft.className owner))).appendMethod
      owner (methodOf options key endpoint))
  | .group name _ _ children, draft =>
    let className := groupClassName key name options.groupSuffix
    visitAll options draft.classes.length children
      (((draft.tell (.addedGroup className (draft.className owner) key)).openClass className
        false).appendGetter owner { name := key, target := className })
  | .foreign kind, _ => .error ⟨key, kind⟩

/-- Visits the children of the node whose class has the number `owner`. -/
def visitAll (options : Options) (owner : Nat) :
    List (String × Node) → Draft → Except Unsupported Draft
  | [], draft => .ok draft
  | (key, node) :: rest, draft =>
    match visit options owner key node draft with
    | .error e => .error e
    | .ok draft => visitAll options owner rest draft

end

/-! ## The module and its text -/

/-- The imports of a module. -/
def Options.imports (options : Options) : List Code.Import :=
  if options.importsTransport then [{ path := "axios", defaultBinding := some "axios" }] else []

/-- The module with the classes entered so far. -/
def Draft.toModule (draft : Draft) (options : Options) : Code.Module where
  imports := options.imports
  classes := draft.classes

/-- The classes of a schema and what is told on the way. -/
def draft (options : Options) (schema : Schema) : Except Unsupported Draft :=
  visitAll options 0 schema.children
    ((Draft.mk [] []).openClass (options.rootClassName schema) true)

/-- The module of a schema. -/
def ofSchema (options : Options) (schema : Schema) : Except Unsupported Code.Module :=
  match draft options schema with
  | .error e => .error e
  | .ok draft => .ok (draft.toModule options)

/-- The source text of the client of a schema, and the events of its generation. -/
def source (options : Options) (schema : Schema) : Except Unsupported (String × List Event) :=
  match draft options schema with
  | .error e => .error e
  | .ok draft =>
    .ok ((draft.toModule options).render,
      draft.events ++ [.built draft.classes.length (draft.className 0)])

theorem source_eq_ofSchema_render (options : Options) (schema : Schema) :
    (source options schema).map Prod.fst = (ofSchema options schema).map Code.Module.render := by
  unfold source ofSchema
  cases draft options schema <;> rfl

end ApiScribe.Client
