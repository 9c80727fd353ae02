import Mathlib.Data.Fintype.EquivFin
import ApiScribe.Proofs.Schema.Editing

set_option autoImplicit false

/-! # Containers with no cycle below them

Nothing keeps a group from being added below itself, and what is read out of a registry is then cut
off where the fuel ends. Where no node below a container lies in one of its own children, and only
endpoints and groups stand there, the container stands for a finite tree
(`Registry.exists_holdsAll_below`): the way down meets no node twice, and there are only finitely
many. The same node may still be met on many ways. The kinds of the children are those of the
members, so the endpoints and the groups of the tree are known by their keys without reading it. -/

namespace ApiScribe

theorem map_fst_endpointsOf (children : List (String × Node)) :
    (endpointsOf children).map Prod.fst =
      (children.filter fun child => child.2.isEndpoint).map Prod.fst := by
  induction children with
  | nil => rfl
  | cons child rest ih =>
    simp only [endpointsOf] at ih
    obtain ⟨key, node⟩ := child
    cases node <;> simpa [endpointsOf, Node.isEndpoint] using ih

theorem map_fst_groupsOf (children : List (String × Node)) :
    (groupsOf children).map Prod.fst =
      (children.filter fun child => child.2.isGroup).map Prod.fst := by
  induction children with
  | nil => rfl
  | cons child rest ih =>
    simp only [groupsOf] at ih
    obtain ⟨key, node⟩ := child
    cases node <;> simpa [groupsOf, Node.isGroup] using ih

namespace Registry

variable {registry : Registry} {root : NodeId}

/-! ## Kinds of members -/

/-- Whether an endpoint stands under a key. -/
def isEndpoint (registry : Registry) : Member → Bool
  | .scope _ => false
  | .node id =>
    match registry.cells[id]? with
    | some (.endpoint _) => true
    | _ => false

/-- Whether a group stands under a key. -/
def isGroup (registry : Registry) : Member → Bool
  | .scope _ => false
  | .node id =>
    match registry.cells[id]? with
    | some (.container container) => container.kind = .group
    | _ => false

/-- An endpoint or a group is a node that has a cell. -/
theorem exists_cell_of_kind {member : Member}
    (h : registry.isEndpoint member ∨ registry.isGroup member) :
    ∃ id : NodeId, member = .node id ∧ id < registry.cells.length := by
  cases member with
  | scope scope => simp [isEndpoint, isGroup] at h
  | node id =>
    refine ⟨id, rfl, ?_⟩
    by_contra hlt
    simp [isEndpoint, isGroup, List.getElem?_eq_none (Nat.le_of_not_lt hlt)] at h

/-- The tree that a member stands for is of the kind of the member. -/
theorem Holds.kind_eq {member : Member} {node : Node} (h : registry.Holds member node) :
    registry.isEndpoint member = node.isEndpoint ∧ registry.isGroup member = node.isGroup := by
  cases node with
  | endpoint endpoint =>
    obtain ⟨id, rfl, hcell⟩ := holds_endpoint.1 h
    simp [isEndpoint, isGroup, hcell, Node.isEndpoint, Node.isGroup]
  | group name url scope children =>
    obtain ⟨id, members, rfl, hcell, -⟩ := holds_group.1 h
    simp [isEndpoint, isGroup, hcell, Node.isEndpoint, Node.isGroup]
  | foreign kind => exact absurd h not_holds_foreign

/-- A tree that a group stands for is a group of the same name. -/
theorem Holds.exists_group {id : NodeId} {node : Node} {name url : Option String} {scope : ScopeId}
    {members : Table String Member} (h : registry.Holds (.node id) node)
    (hcell : registry.cells[id]? = some (.container ⟨.group, name, url, scope, members⟩)) :
    ∃ children, node = .group name url scope children := by
  cases node with
  | endpoint endpoint =>
    obtain ⟨id', hid, hcell'⟩ := holds_endpoint.1 h
    obtain rfl := Member.node.inj hid
    cases hcell.symm.trans hcell'
  | group name' url' scope' children =>
    obtain ⟨id', members', hid, hcell', -⟩ := holds_group.1 h
    obtain rfl := Member.node.inj hid
    cases hcell.symm.trans hcell'
    exact ⟨children, rfl⟩
  | foreign kind => exact absurd h not_holds_foreign

/-- Members and the trees they stand for have the same keys among those of one kind. -/
theorem HoldsAll.map_fst_filter {p : Member → Bool} {q : Node → Bool}
    (hkind : ∀ {member node}, registry.Holds member node → p member = q node)
    {members : List (String × Member)} {children : List (String × Node)}
    (h : registry.HoldsAll members children) :
    (children.filter fun child => q child.2).map Prod.fst =
      (members.filter fun child => p child.2).map Prod.fst := by
  induction children generalizing members with
  | nil =>
    rw [holdsAll_nil.1 h]
    rfl
  | cons child rest ih =>
    obtain ⟨key, node⟩ := child
    obtain ⟨member, others, rfl, hnode, hrest⟩ := holdsAll_cons.1 h
    have hq : q node = p member := (hkind hnode).symm
    cases hp : p member <;> simp [hq, hp, ih hrest]

theorem HoldsAll.map_fst {members : List (String × Member)} {children : List (String × Node)}
    (h : registry.HoldsAll members children) :
    children.map Prod.fst = members.map Prod.fst := by
  have hall := @HoldsAll.map_fst_filter _ (fun _ => true) (fun _ => true) (fun _ => rfl) _ _ h
  simpa only [List.filter_true] using hall

/-- What stands under a key of the tree is what the member under the key stands for. -/
theorem HoldsAll.exists_mem {members : List (String × Member)} {children : List (String × Node)}
    (h : registry.HoldsAll members children) {key : String} {member : Member}
    (hmem : (key, member) ∈ members) :
    ∃ node, (key, node) ∈ children ∧ registry.Holds member node := by
  induction children generalizing members with
  | nil =>
    rw [holdsAll_nil.1 h] at hmem
    cases hmem
  | cons child rest ih =>
    obtain ⟨first, others, rfl, hnode, hrest⟩ := holdsAll_cons.1 h
    rcases List.mem_cons.1 hmem with heq | hmem
    · obtain ⟨rfl, rfl⟩ := Prod.mk.inj heq
      exact ⟨child.2, List.mem_cons_self .., hnode⟩
    · obtain ⟨node, hchild, hholds⟩ := ih hrest hmem
      exact ⟨node, List.mem_cons_of_mem _ hchild, hholds⟩

/-! ## The way down -/

/-- A node is one of the children of a container. -/
def HasChild (registry : Registry) (id next : NodeId) : Prop :=
  ∃ (container : Container) (key : String),
    registry.cells[id]? = some (.container container) ∧ (key, .node next) ∈ container.children

/-- No node in a container lies in one of its own children. -/
def NoCycleBelow (registry : Registry) (root : NodeId) : Prop :=
  ∀ id next, registry.Reaches root id → registry.HasChild id next → ¬registry.Reaches next id

/-- Only endpoints and groups stand in a container and in the groups below it. -/
def KnownBelow (registry : Registry) (root : NodeId) : Prop :=
  ∀ id container, registry.Reaches root id → registry.cells[id]? = some (.container container) →
    ∀ child ∈ container.children, registry.isEndpoint child.2 ∨ registry.isGroup child.2

theorem Reaches.trans {first second third : NodeId} (h : registry.Reaches first second)
    (h' : registry.Reaches second third) : registry.Reaches first third := by
  induction h with
  | refl => exact h'
  | child hcell hmem _ ih => exact .child hcell hmem (ih h')

theorem HasChild.reaches {id next : NodeId} (h : registry.HasChild id next) :
    registry.Reaches id next := by
  obtain ⟨container, key, hcell, hmem⟩ := h
  exact .child hcell hmem (.refl next)

/-- There is no cycle where every child has a smaller rank than its container. -/
theorem noCycleBelow_of_rank (rank : NodeId → Nat)
    (h : ∀ {id next}, registry.HasChild id next → rank next < rank id) (root : NodeId) :
    registry.NoCycleBelow root := by
  have hle : ∀ {id target}, registry.Reaches id target → rank target ≤ rank id := by
    intro id target hreaches
    induction hreaches with
    | refl => exact Nat.le_refl _
    | child hcell hmem _ ih => exact Nat.le_trans ih (Nat.le_of_lt (h ⟨_, _, hcell, hmem⟩))
  intro id next _ hchild hback
  exact absurd (hle hback) (Nat.not_le_of_lt (h hchild))

/-- A node lies in a child of another, which lies in a container. -/
def Inside (registry : Registry) (root inner outer : NodeId) : Prop :=
  registry.Reaches root outer ∧ ∃ next, registry.HasChild outer next ∧ registry.Reaches next inner

theorem Inside.trans {inner middle outer : NodeId} (h : registry.Inside root inner middle)
    (h' : registry.Inside root middle outer) : registry.Inside root inner outer := by
  obtain ⟨-, next, hchild, hinner⟩ := h
  obtain ⟨houter, next', hchild', hmiddle⟩ := h'
  exact ⟨houter, next', hchild', hmiddle.trans (hchild.reaches.trans hinner)⟩

/-- The way down ends. -/
theorem wellFounded_inside (h : registry.NoCycleBelow root) :
    WellFounded fun inner outer : Fin registry.cells.length =>
      registry.Inside root inner outer := by
  have : IsTrans (Fin registry.cells.length) fun inner outer => registry.Inside root inner outer :=
    ⟨fun _ _ _ => Inside.trans⟩
  have : Std.Irrefl fun inner outer : Fin registry.cells.length =>
      registry.Inside root inner outer :=
    ⟨fun id hid => by
      obtain ⟨hroot, next, hchild, hback⟩ := hid
      exact h id next hroot hchild hback⟩
  exact Finite.wellFounded_of_trans_of_irrefl _

/-! ## The tree below a container -/

theorem exists_holdsAll {members : List (String × Member)}
    (h : ∀ child ∈ members, ∃ node, registry.Holds child.2 node) :
    ∃ children, registry.HoldsAll members children := by
  induction members with
  | nil => exact ⟨[], holdsAll_nil.2 rfl⟩
  | cons child rest ih =>
    obtain ⟨node, hnode⟩ := h child (List.mem_cons_self ..)
    obtain ⟨children, hchildren⟩ := ih fun other hother => h other (List.mem_cons_of_mem _ hother)
    exact ⟨(child.1, node) :: children, holdsAll_cons.2 ⟨child.2, rest, rfl, hnode, hchildren⟩⟩

/-- A container stands for a tree if its children do. -/
theorem exists_holdsAll_of_children (hknown : registry.KnownBelow root) {id : NodeId}
    {container : Container} (hroot : registry.Reaches root id)
    (hcell : registry.cells[id]? = some (.container container))
    (h : ∀ next : Fin registry.cells.length, registry.HasChild id next →
      registry.isEndpoint (.node next) ∨ registry.isGroup (.node next) →
      ∃ node, registry.Holds (.node next) node) :
    ∃ children, registry.HoldsAll container.children children := by
  refine exists_holdsAll fun child hchild => ?_
  have hkind := hknown id container hroot hcell child hchild
  obtain ⟨next, hnext, hlt⟩ := exists_cell_of_kind hkind
  have hmem : (child.1, .node next) ∈ container.children := hnext ▸ hchild
  rw [hnext] at hkind ⊢
  exact h ⟨next, hlt⟩ ⟨container, child.1, hcell, hmem⟩ hkind

/-- Every endpoint and every group below the container stands for a tree. -/
theorem exists_holds (hcycle : registry.NoCycleBelow root) (hknown : registry.KnownBelow root)
    (id : Fin registry.cells.length) (hroot : registry.Reaches root id)
    (hkind : registry.isEndpoint (.node id) ∨ registry.isGroup (.node id)) :
    ∃ node, registry.Holds (.node id) node := by
  -- the children of a group lie inside it
  induction id using (wellFounded_inside hcycle).induction with
  | _ id ih =>
    obtain ⟨cell, hcell⟩ : ∃ cell, registry.cells[(id : Nat)]? = some cell :=
      ⟨_, List.getElem?_eq_getElem id.isLt⟩
    cases cell with
    | endpoint endpoint => exact ⟨.endpoint endpoint, holds_endpoint.2 ⟨id, rfl, hcell⟩⟩
    | container container =>
      obtain ⟨children, hchildren⟩ := exists_holdsAll_of_children hknown hroot hcell
        fun next hchild => ih next ⟨hroot, next, hchild, .refl _⟩ (hroot.trans hchild.reaches)
      obtain ⟨kind, name, url, scope, members⟩ := container
      cases kind with
      | group => exact ⟨.group name url scope children, holds_group.2 ⟨id, members, rfl, hcell,
          hchildren⟩⟩
      | schema =>
        rw [isEndpoint, isGroup, hcell] at hkind
        simp at hkind

/-- **A container with no cycle below it stands for a finite tree**, if only endpoints and groups
    stand there. -/
theorem exists_holdsAll_below (hcycle : registry.NoCycleBelow root)
    (hknown : registry.KnownBelow root) {container : Container}
    (hroot : registry.cells[root]? = some (.container container)) :
    ∃ children, registry.HoldsAll container.children children :=
  exists_holdsAll_of_children hknown (.refl root) hroot fun next hchild =>
    exists_holds hcycle hknown next hchild.reaches

end Registry

end ApiScribe
