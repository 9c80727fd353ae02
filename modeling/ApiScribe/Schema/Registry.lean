import ApiScribe.Schema.Basic

set_option autoImplicit false

/-! # Schemas under construction

While a schema is put together its nodes are shared: a group may stand in several places, and what
is added to it later shows in all of them. A `Registry` holds every node once, under a number, and a
container lists its children by number. A tree is read out of the registry as it stands
(`Registry.schema?`), and a finished tree is entered into it node by node (`Registry.enter`). -/

namespace ApiScribe

/-- The number of a node in a registry. -/
abbrev NodeId := Nat

/-- What stands under a key of a container: a node, or a scope, which is none. -/
inductive Member where
  | node (id : NodeId)
  | scope (id : ScopeId)
deriving DecidableEq, Repr

/-- The two kinds of node that have children. -/
inductive ContainerKind where
  | group
  | schema
deriving DecidableEq, Repr

/-- A node with children. -/
structure Container where
  kind : ContainerKind
  name : Option String
  url : Option String
  scope : ScopeId
  children : Table String Member
deriving DecidableEq, Repr

/-- The container with a member under a key, in place of one that stands there. -/
def Container.add (container : Container) (key : String) (member : Member) : Container :=
  { container with children := container.children.insert key member }

/-- A registered node. -/
inductive Cell where
  | endpoint (endpoint : Endpoint)
  | container (container : Container)
deriving DecidableEq, Repr

/-- The scope of a node. -/
def Cell.scope : Cell → ScopeId
  | endpoint e => e.scope
  | container c => c.scope

/-- All scopes and all nodes, the latter in the order in which they were made. -/
structure Registry where
  scopes : Scopes := {}
  cells : List Cell := []

namespace Registry

/-! ## Making nodes and joining them -/

/-- Registers a node. -/
def register (registry : Registry) (cell : Cell) : NodeId × Registry :=
  (registry.cells.length, { registry with cells := registry.cells ++ [cell] })

/-- The given scope, or else a new one that lies in no other. -/
def scopeOrNew (registry : Registry) : Option ScopeId → ScopeId × Registry
  | some scope => (scope, registry)
  | none =>
    let (scope, scopes) := registry.scopes.create [] none
    (scope, { registry with scopes })

/-- Makes an endpoint. -/
def newEndpoint (registry : Registry) (url : Option String) (request : Request)
    (scope : Option ScopeId) : NodeId × Registry :=
  let (scope, registry) := registry.scopeOrNew scope
  registry.register (.endpoint { url, request, scope })

/-- Makes a container without children. -/
def newContainer (registry : Registry) (kind : ContainerKind) (name url : Option String)
    (scope : Option ScopeId) : NodeId × Registry :=
  let (scope, registry) := registry.scopeOrNew scope
  registry.register (.container { kind, name, url, scope, children := [] })

/-- Puts a member under a key of a container. -/
def add (registry : Registry) (owner : NodeId) (key : String) (member : Member) : Registry :=
  { registry with cells := registry.cells.modify owner fun
      | .container container => .container (container.add key member)
      | cell => cell }

/-- What stands under a key of a container. -/
def child? (registry : Registry) (owner : NodeId) (key : String) : Option Member :=
  match registry.cells[owner]? with
  | some (.container container) => container.children.get? key
  | _ => none

/-! ## Reading trees out -/

/-- The node that a member stands for, as a tree. The fuel bounds the depth of the tree, which the
    number of nodes exceeds where no node contains itself. -/
def toNode (registry : Registry) : Nat → Member → Node
  | _, .scope _ => .foreign .scope
  | 0, .node _ => .foreign .schema
  | fuel + 1, .node id =>
    match registry.cells[id]? with
    | some (.endpoint endpoint) => .endpoint endpoint
    | some (.container ⟨.group, name, url, scope, children⟩) =>
      .group name url scope (children.map fun child => (child.1, registry.toNode fuel child.2))
    | some (.container ⟨.schema, _, _, _, _⟩) => .foreign .schema
    | none => .foreign .schema

/-- The tree with a container at its root, of either kind. -/
def schema? (registry : Registry) (root : NodeId) : Option Schema :=
  match registry.cells[root]? with
  | some (.container ⟨_, name, url, scope, children⟩) =>
    some { name, url, scope, children := children.map fun child =>
      (child.1, registry.toNode registry.cells.length child.2) }
  | _ => none

/-! ## Entering trees -/

mutual

/-- Enters a node and all below it. A foreign node of a tree has no registered counterpart. -/
def enterNode (registry : Registry) : Node → Option (Member × Registry)
  | .endpoint endpoint =>
    let (id, registry) := registry.register (.endpoint endpoint)
    some (.node id, registry)
  | .group name url scope children =>
    let (id, registry) := registry.register (.container ⟨.group, name, url, scope, []⟩)
    some (.node id, registry.enterChildren id children)
  | .foreign _ => none

/-- Enters the children of a container. -/
def enterChildren (registry : Registry) (owner : NodeId) : List (String × Node) → Registry
  | [] => registry
  | (key, node) :: rest =>
    match registry.enterNode node with
    | some (member, registry) => (registry.add owner key member).enterChildren owner rest
    | none => registry.enterChildren owner rest

end

/-- Enters a schema whose scopes are among those of the registry. -/
def enter (registry : Registry) (schema : Schema) : NodeId × Registry :=
  let (id, registry) :=
    registry.register (.container ⟨.schema, schema.name, schema.url, schema.scope, []⟩)
  (id, registry.enterChildren id schema.children)

end Registry

end ApiScribe
