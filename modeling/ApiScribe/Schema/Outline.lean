import ApiScribe.Schema.Registry
import ApiScribe.Text.Printed

set_option autoImplicit false

/-! # Outlines

An outline lists the nodes of a tree in the order of a walk that visits every node before its
children. Each entry says where its node stands and whether the scope of the node lies directly in
the scope of the node that contains it. -/

namespace ApiScribe

/-! ## Nodes as diagnostics print them -/

/-- The name of the kind of a request. -/
def Request.label : Request → String
  | get _ => "GetAPI"
  | post _ => "PostAPI"
  | put _ => "PutAPI"
  | custom _ => "CustomAPI"

/-- The name of a kind of container. -/
def ContainerKind.label : ContainerKind → String
  | group => "APISet"
  | schema => "Schema"

/-- The name of the kind of a node. -/
def Cell.label : Cell → String
  | endpoint e => e.request.label
  | container c => c.kind.label

/-- An optional text as diagnostics print it. -/
def printedOption : Option String → String
  | some text => Text.printedMarked text
  | none => "None"

/-- The node as diagnostics print it: an endpoint by its address, a container by its name and the
    keys of its children. -/
def Cell.printed : Cell → String
  | endpoint e => e.request.label ++ "(url=" ++ printedOption e.url ++ ")"
  | container c =>
    c.kind.label ++ "(name=" ++ printedOption c.name ++ ", apis=["
      ++ ", ".intercalate (c.children.keys.map Text.printedMarked) ++ "])"

namespace Registry

/-! ## The outline of a tree -/

/-- An entry of an outline. The root stands under no key, at level 0, and is not chained. -/
structure OutlineEntry where
  key : Option String
  level : Nat
  chained : Bool
  cell : Cell

/-- The outline of the node of a number and all below it. `around` is the scope of the container,
    and the fuel bounds the depth. -/
def outlineBelow (registry : Registry) (fuel level : Nat) (key : Option String)
    (around : Option ScopeId) (id : NodeId) : List OutlineEntry :=
  match fuel, registry.cells[id]? with
  | fuel + 1, some cell =>
    let chained := around.isSome && registry.scopes.parent? cell.scope == around
    { key, level, chained, cell } ::
      match cell with
      | .endpoint _ => []
      | .container container =>
        container.children.flatMap fun
          | (key, .node id) =>
            registry.outlineBelow fuel (level + 1) (some key) (some container.scope) id
          | (_, .scope _) => []
  | _, _ => []

/-- The outline of the tree with the node of a number at its root. -/
def outline (registry : Registry) (root : NodeId) : List OutlineEntry :=
  registry.outlineBelow registry.cells.length 0 none none root

end Registry

end ApiScribe
