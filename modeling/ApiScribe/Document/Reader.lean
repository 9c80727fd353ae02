import ApiScribe.Document.Error
import ApiScribe.Schema.Basic

set_option autoImplicit false

/-! # Schemas from documents

A document is a JSON value that describes a schema. Its root is an object with an optional `name`
and `url` and with children under `apis`. A child with `apis` is a group of the same form; any other
child is an endpoint, with a `method`, an optional `url`, and optional fields under `params` for GET
and under `data` for POST and PUT. The method is read without regard to case.

The checks of a node come in a fixed order, a node's own before those of its children, and a child
is read completely before its next sibling. The first check that fails decides the error. Every
node gets a new scope inside the scope of the node that contains it. The schema holds the texts of
the document marked, so that texts which differ in the document differ in the schema. -/

namespace ApiScribe.Document

/-! ## Members of a node -/

/-- An optional text: absent and null are the same. -/
def optionalText (members : Json.Members) (field : String) (path : NodePath) :
    Except Error (Option String) :=
  match members.get? field with
  | none => .ok none
  | some .null => .ok none
  | some (.string text) => .ok (some text.marked)
  | some _ => .error (.inNode path (.fieldNotText field))

/-- The members of an object as fields, if every value is a text. -/
def fieldTexts? : List (LooseText × Json) → Option Fields
  | [] => some []
  | (name, .string type) :: rest => (fieldTexts? rest).map ((name.marked, type.marked) :: ·)
  | _ :: _ => none

/-- Optional fields: absent and null are the same. -/
def optionalFields (members : Json.Members) (field : String) (path : NodePath) :
    Except Error (Option Fields) :=
  match members.get? field with
  | none => .ok none
  | some .null => .ok none
  | some (.object entries) =>
    match fieldTexts? entries with
    | some fields => .ok (some fields)
    | none => .error (.inNode path (.fieldsNotTexts field))
  | some _ => .error (.inNode path (.fieldsNotTexts field))

/-! ## Endpoints -/

/-- The verbs that a document can ask for. -/
inductive Verb where
  | get
  | post
  | put
deriving DecidableEq, Repr

/-- The verb that a text gives in any case. -/
def Verb.ofText? (text : String) : Option Verb :=
  let text := Text.upper text
  if text = "GET" then some .get
  else if text = "POST" then some .post
  else if text = "PUT" then some .put
  else none

/-- The verb of an endpoint, if it has a method that is one. -/
def verb? (members : Json.Members) : Option Verb :=
  match members.get? "method" with
  | some (.string text) => Verb.ofText? text.marked
  | _ => none

/-- The request of an endpoint. Fields have to stand where the verb has a use for them. -/
def readRequest (members : Json.Members) (path : NodePath) : Verb → Except Error Request
  | .get =>
    if Table.contains members "data" then .error (.inNode path .bodyOfGet)
    else .get <$> optionalFields members "params" path
  | .post =>
    if Table.contains members "params" then .error (.inNode path (.queryBeside "POST"))
    else .post <$> optionalFields members "data" path
  | .put =>
    if Table.contains members "params" then .error (.inNode path (.queryBeside "PUT"))
    else .put <$> optionalFields members "data" path

/-- The endpoint that an object describes. -/
def readEndpoint (members : Json.Members) (scope : ScopeId) (path : NodePath) :
    Except Error Endpoint :=
  match verb? members with
  | none => .error (.inNode path (.unsupportedMethod ((members.get? "method").getD .null)))
  | some verb => do
    let url ← optionalText members "url" path
    let request ← readRequest members path verb
    return { url, request, scope }

/-! ## Nodes -/

mutual

/-- The node that a value describes, in a new scope inside `parent`, and all scopes after it. -/
def readNode (parent : ScopeId) (path : NodePath) (scopes : Scopes) :
    Json → Except Error (Node × Scopes)
  | .object members =>
    if Table.contains members "apis" && Table.contains members "method" then
      .error (.inNode path .endpointAndGroup)
    else
      let (scope, scopes) := scopes.createWithin parent []
      match readChildren? scope path scopes members with
      | none => do
        let endpoint ← readEndpoint members scope path
        return (.endpoint endpoint, scopes)
      | some result => do
        let name ← optionalText members "name" path
        let url ← optionalText members "url" path
        let (children, scopes) ← result
        return (.group name url scope children, scopes)
  | _ => .error (.inNode path .notObject)

/-- The children that the members of an object give under `apis`, if they do. -/
def readChildren? (scope : ScopeId) (path : NodePath) (scopes : Scopes) :
    List (LooseText × Json) → Option (Except Error (List (String × Node) × Scopes))
  | [] => none
  | (key, value) :: rest =>
    if key = "apis" then some (readChildren scope path scopes value)
    else readChildren? scope path scopes rest

/-- The children of a node whose scope is `scope`. -/
def readChildren (scope : ScopeId) (path : NodePath) (scopes : Scopes) :
    Json → Except Error (List (String × Node) × Scopes)
  | .object entries => readEntries scope path scopes entries
  | _ => .error (.inNode path .childrenNotObject)

/-- Child after child. -/
def readEntries (scope : ScopeId) (path : NodePath) (scopes : Scopes) :
    List (LooseText × Json) → Except Error (List (String × Node) × Scopes)
  | [] => .ok ([], scopes)
  | (key, value) :: rest => do
    let (node, scopes) ← readNode scope (path ++ [key.marked]) scopes value
    let (nodes, scopes) ← readEntries scope path scopes rest
    return ((key.marked, node) :: nodes, scopes)

end

/-- The schema that a document describes, and all scopes after it. -/
def read (scopes : Scopes) : Json → Except Error (Schema × Scopes)
  | .object members => do
    let (scope, scopes) := scopes.create [] none
    let name ← optionalText members "name" []
    let url ← optionalText members "url" []
    let (children, scopes) ← (readChildren? scope [] scopes members).getD (.ok ([], scopes))
    return ({ name, url, scope, children }, scopes)
  | _ => .error .rootNotObject

end ApiScribe.Document
