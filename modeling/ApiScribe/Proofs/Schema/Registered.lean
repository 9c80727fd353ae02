import Mathlib.Data.List.Perm.Subperm
import ApiScribe.Schema.Registry
import ApiScribe.Proofs.Schema.Preorder

set_option autoImplicit false

/-! # Trees in a registry

A registry is a graph: a node may be a child of several containers, and a tree that is read out of
it is cut off where the fuel ends. `Registry.Holds` says without fuel that a node stands for a
finite tree, shared or not. Fuel for as many levels as the registry has cells is enough to read such
a tree (`Registry.schema?_of_holdsAll`), however its nodes are numbered: the cells on the way down
to a node are all different, because each of them stands for a larger tree than the next. -/

namespace ApiScribe

/-! ## What a node of a registry stands for -/

mutual

/-- The number of groups and endpoints in a node, the node itself included. -/
def Node.size : Node → Nat
  | .endpoint _ => 1
  | .group _ _ _ children => sizeBelow children + 1
  | .foreign _ => 0

/-- The number of groups and endpoints in these nodes. -/
def sizeBelow : List (String × Node) → Nat
  | [] => 0
  | (_, node) :: rest => node.size + sizeBelow rest

end

namespace Registry

mutual

/-- What stands under a key is a tree of groups and endpoints. -/
def Holds (registry : Registry) : Member → Node → Prop
  | member, .endpoint endpoint => ∃ id : NodeId, member = .node id ∧
      registry.cells[id]? = some (.endpoint endpoint)
  | member, .group name url scope children => ∃ (id : NodeId) (members : Table String Member),
      member = .node id ∧
      registry.cells[id]? = some (.container ⟨.group, name, url, scope, members⟩) ∧
      HoldsAll registry members children
  | _, .foreign _ => False

/-- The members are trees of groups and endpoints, under the same keys in the same order. -/
def HoldsAll (registry : Registry) : List (String × Member) → List (String × Node) → Prop
  | members, [] => members = []
  | members, (key, node) :: rest => ∃ member others, members = (key, member) :: others ∧
      Holds registry member node ∧ HoldsAll registry others rest

end

variable {registry : Registry}

theorem holds_endpoint {member : Member} {endpoint : Endpoint} :
    registry.Holds member (.endpoint endpoint) ↔
      ∃ id : NodeId, member = .node id ∧ registry.cells[id]? = some (.endpoint endpoint) := by
  rw [Holds]

theorem holds_group {member : Member} {name url : Option String} {scope : ScopeId}
    {children : List (String × Node)} :
    registry.Holds member (.group name url scope children) ↔
      ∃ (id : NodeId) (members : Table String Member), member = .node id ∧
      registry.cells[id]? = some (.container ⟨.group, name, url, scope, members⟩) ∧
      registry.HoldsAll members children := by
  rw [Holds]

theorem not_holds_foreign {member : Member} {kind : Foreign} :
    ¬registry.Holds member (.foreign kind) := by
  simp [Holds]

theorem holdsAll_nil {members : List (String × Member)} :
    registry.HoldsAll members [] ↔ members = [] := by
  rw [HoldsAll]

theorem holdsAll_cons {members : List (String × Member)} {key : String} {node : Node}
    {rest : List (String × Node)} :
    registry.HoldsAll members ((key, node) :: rest) ↔ ∃ member others,
      members = (key, member) :: others ∧ registry.Holds member node ∧
      registry.HoldsAll others rest := by
  rw [HoldsAll]

/-- What stands for a tree is a node, and it has a cell. -/
theorem exists_cell_of_holds {member : Member} {node : Node} (h : registry.Holds member node) :
    ∃ id : NodeId, member = .node id ∧ id < registry.cells.length := by
  cases node with
  | endpoint endpoint =>
    obtain ⟨id, rfl, hcell⟩ := holds_endpoint.1 h
    exact ⟨id, rfl, (List.getElem?_eq_some_iff.1 hcell).1⟩
  | group name url scope children =>
    obtain ⟨id, members, rfl, hcell, -⟩ := holds_group.1 h
    exact ⟨id, rfl, (List.getElem?_eq_some_iff.1 hcell).1⟩
  | foreign kind => exact absurd h not_holds_foreign

mutual

/-- A member stands for one tree at most. -/
theorem Holds.unique {member : Member} : ∀ first second : Node,
    registry.Holds member first → registry.Holds member second → first = second
  | .foreign _, _, h, _ => absurd h not_holds_foreign
  | .endpoint _, .foreign _, _, h => absurd h not_holds_foreign
  | .group .., .foreign _, _, h => absurd h not_holds_foreign
  | .endpoint _, .endpoint _, ha, hb => by
    obtain ⟨id, rfl, hcell⟩ := holds_endpoint.1 ha
    obtain ⟨id', hid, hcell'⟩ := holds_endpoint.1 hb
    obtain rfl := Member.node.inj hid
    rw [Cell.endpoint.inj (Option.some.inj (hcell.symm.trans hcell'))]
  | .endpoint _, .group .., ha, hb => by
    obtain ⟨id, rfl, hcell⟩ := holds_endpoint.1 ha
    obtain ⟨id', members, hid, hcell', -⟩ := holds_group.1 hb
    obtain rfl := Member.node.inj hid
    cases hcell.symm.trans hcell'
  | .group .., .endpoint _, ha, hb => by
    obtain ⟨id, members, rfl, hcell, -⟩ := holds_group.1 ha
    obtain ⟨id', hid, hcell'⟩ := holds_endpoint.1 hb
    obtain rfl := Member.node.inj hid
    cases hcell.symm.trans hcell'
  | .group _ _ _ children, .group _ _ _ children', ha, hb => by
    obtain ⟨id, members, rfl, hcell, hchildren⟩ := holds_group.1 ha
    obtain ⟨id', members', hid, hcell', hchildren'⟩ := holds_group.1 hb
    obtain rfl := Member.node.inj hid
    have hsame := Cell.container.inj (Option.some.inj (hcell.symm.trans hcell'))
    simp only [Container.mk.injEq] at hsame
    obtain ⟨-, rfl, rfl, rfl, rfl⟩ := hsame
    rw [HoldsAll.unique children children' hchildren hchildren']

theorem HoldsAll.unique {members : List (String × Member)} : ∀ first second : List (String × Node),
    registry.HoldsAll members first → registry.HoldsAll members second → first = second
  | [], [], _, _ => rfl
  | [], (_, _) :: _, ha, hb => by
    obtain ⟨member, others, rfl, -⟩ := holdsAll_cons.1 hb
    cases holdsAll_nil.1 ha
  | (_, _) :: _, [], ha, hb => by
    obtain ⟨member, others, rfl, -⟩ := holdsAll_cons.1 ha
    cases holdsAll_nil.1 hb
  | (key, node) :: rest, (key', node') :: rest', ha, hb => by
    obtain ⟨member, others, rfl, hnode, hrest⟩ := holdsAll_cons.1 ha
    obtain ⟨member', others', heq, hnode', hrest'⟩ := holdsAll_cons.1 hb
    simp only [List.cons.injEq, Prod.mk.injEq] at heq
    obtain ⟨⟨rfl, rfl⟩, rfl⟩ := heq
    rw [Holds.unique node node' hnode hnode', HoldsAll.unique rest rest' hrest hrest']

end

mutual

/-- No node of such a tree is foreign. -/
theorem Holds.known {member : Member} (key : String) : ∀ node : Node, registry.Holds member node →
    ∀ entry ∈ node.preorder key, entry.2.isForeign = false
  | .endpoint _, _ => by simp [Node.preorder, Node.isForeign]
  | .foreign _, h => absurd h not_holds_foreign
  | .group name url scope children, h => by
    obtain ⟨id, members, -, -, hchildren⟩ := holds_group.1 h
    simpa [Node.preorder, Node.isForeign] using HoldsAll.known children hchildren

theorem HoldsAll.known {members : List (String × Member)} : ∀ children : List (String × Node),
    registry.HoldsAll members children →
    ∀ entry ∈ preorderBelow children, entry.2.isForeign = false
  | [], _ => by simp [preorderBelow]
  | (key, node) :: rest, h => by
    obtain ⟨member, others, -, hnode, hrest⟩ := holdsAll_cons.1 h
    intro entry hentry
    rcases List.mem_append.1 hentry with hentry | hentry
    · exact Holds.known key node hnode entry hentry
    · exact HoldsAll.known rest hrest entry hentry

end

/-! ## Fuel -/

/-- The cells on the way down to a tree: all different, and each stands for a larger tree. -/
structure Way (registry : Registry) (way : List NodeId) (size : Nat) : Prop where
  nodup : way.Nodup
  larger : ∀ id ∈ way, ∃ node, registry.Holds (.node id) node ∧ size < node.size

theorem Way.nil (registry : Registry) (size : Nat) : registry.Way [] size :=
  ⟨.nil, by simp⟩

/-- A way is not longer than the registry. -/
theorem Way.length_le {way : List NodeId} {size : Nat} (h : registry.Way way size) :
    way.length ≤ registry.cells.length := by
  have hsubset : way ⊆ List.range registry.cells.length := by
    intro id hid
    obtain ⟨node, hnode, -⟩ := h.larger id hid
    obtain ⟨id', hid', hlt⟩ := exists_cell_of_holds hnode
    exact List.mem_range.2 (Member.node.inj hid' ▸ hlt)
  simpa using (List.Nodup.subperm h.nodup hsubset).length_le

/-- A way does not pass through a cell again. -/
theorem Way.cons {way : List NodeId} {id : NodeId} {node : Node} (h : registry.Way way node.size)
    (hnode : registry.Holds (.node id) node) {size : Nat} (hsize : size < node.size) :
    registry.Way (id :: way) size := by
  constructor
  case nodup =>
    refine List.nodup_cons.2 ⟨?_, h.nodup⟩
    intro hid
    obtain ⟨larger, hlarger, hlt⟩ := h.larger id hid
    rw [Holds.unique larger node hlarger hnode] at hlt
    exact Nat.lt_irrefl _ hlt
  case larger =>
    intro other hother
    rcases List.mem_cons.1 hother with rfl | hother
    · exact ⟨node, hnode, hsize⟩
    · obtain ⟨larger, hlarger, hlt⟩ := h.larger other hother
      exact ⟨larger, hlarger, Nat.lt_trans hsize hlt⟩

theorem Way.mono {way : List NodeId} {size smaller : Nat} (h : registry.Way way size)
    (hle : smaller ≤ size) : registry.Way way smaller := by
  refine ⟨h.nodup, ?_⟩
  intro id hid
  obtain ⟨node, hnode, hlt⟩ := h.larger id hid
  exact ⟨node, hnode, Nat.lt_of_le_of_lt hle hlt⟩

mutual

/-- A tree is read out as far as there are cells that were not met on the way. -/
theorem toNode_of_way {way : List NodeId} {fuel : Nat}
    (hfuel : registry.cells.length ≤ fuel + way.length) {member : Member} : ∀ node : Node,
    registry.Way way node.size → registry.Holds member node → registry.toNode fuel member = node
  | .foreign _, _, h => absurd h not_holds_foreign
  | .endpoint _, hway, h => by
    obtain ⟨id, rfl, hcell⟩ := holds_endpoint.1 h
    have hlong : way.length + 1 ≤ registry.cells.length := (hway.cons h Nat.zero_lt_one).length_le
    obtain ⟨left, rfl⟩ : ∃ left, fuel = left + 1 := ⟨fuel - 1, by omega⟩
    simp [toNode, hcell]
  | .group _ _ _ children, hway, h => by
    obtain ⟨id, members, rfl, hcell, hchildren⟩ := holds_group.1 h
    have hnext : registry.Way (id :: way) (sizeBelow children) := hway.cons h (Nat.lt_succ_self _)
    have hlong : way.length + 1 ≤ registry.cells.length := hnext.length_le
    obtain ⟨left, rfl⟩ : ∃ left, fuel = left + 1 := ⟨fuel - 1, by omega⟩
    have hleft : registry.cells.length ≤ left + (id :: way).length := by
      rw [List.length_cons]
      omega
    simp [toNode, hcell, toNodes_of_way hleft children hnext hchildren]

theorem toNodes_of_way {way : List NodeId} {fuel : Nat}
    (hfuel : registry.cells.length ≤ fuel + way.length) {members : List (String × Member)} :
    ∀ children : List (String × Node), registry.Way way (sizeBelow children) →
    registry.HoldsAll members children →
    (members.map fun child => (child.1, registry.toNode fuel child.2)) = children
  | [], _, h => by rw [holdsAll_nil.1 h, List.map_nil]
  | (key, node) :: rest, hway, h => by
    obtain ⟨member, others, rfl, hnode, hrest⟩ := holdsAll_cons.1 h
    have hsize : sizeBelow ((key, node) :: rest) = node.size + sizeBelow rest := rfl
    rw [List.map_cons, toNode_of_way hfuel node (hway.mono (by omega)) hnode,
      toNodes_of_way hfuel rest (hway.mono (by omega)) hrest]

end

/-- **Reading gives the tree that a container stands for.** -/
theorem schema?_of_holdsAll {root : NodeId} {container : Container}
    (hroot : registry.cells[root]? = some (.container container)) {children : List (String × Node)}
    (h : registry.HoldsAll container.children children) :
    registry.schema? root =
      some ⟨container.name, container.url, container.scope, children⟩ := by
  rw [schema?, hroot]
  simp only [toNodes_of_way (Nat.le_refl _) children (Way.nil registry _) h]

end Registry

end ApiScribe
