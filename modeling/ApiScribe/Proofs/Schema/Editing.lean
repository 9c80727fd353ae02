import ApiScribe.Proofs.Schema.Entered

set_option autoImplicit false

/-! # A change in one container of a tree

A member that is added to a container changes one cell of the registry. If the container lies in a
tree that was entered, the registry then stands for the tree that differs in the children of this
container alone (`Registry.exists_add_eq`): on the way to the container every child but one keeps
its cells. What is added may be shared, also with the tree itself. -/

namespace ApiScribe

/-- Children after a change of those to which keys lead from their container. -/
def changeAt (change : List (String × Node) → List (String × Node)) :
    List String → List (String × Node) → List (String × Node)
  | [], children => change children
  | key :: keys, children =>
    match Table.get? children key with
    | some (.group name url scope inner) =>
      Table.insert key (.group name url scope (changeAt change keys inner)) children
    | _ => children

/-- A schema after a change of the children to which keys lead from the root. -/
def Schema.changeAt (change : List (String × Node) → List (String × Node)) (keys : List String)
    (schema : Schema) : Schema :=
  { schema with children := ApiScribe.changeAt change keys schema.children }

/-- A change behind a key changes the group under the key and no other child. -/
theorem exists_changeAt_cons {branch target : Branch} {key : String} {keys : List String}
    (h : branch.follow (key :: keys) = some target) :
    ∃ before after name url scope inner,
      branch.children = before ++ (key, .group name url scope inner) :: after ∧
      key ∉ Table.keys before ∧
      Branch.follow ⟨branch.path ++ [key], name, inner⟩ keys = some target ∧
      ∀ change, changeAt change (key :: keys) branch.children =
        before ++ (key, .group name url scope (changeAt change keys inner)) :: after := by
  obtain ⟨name, url, scope, inner, hget, hfollow⟩ := Branch.follow_cons_eq_some.1 h
  obtain ⟨before, after, hsplit, hbefore⟩ := Table.exists_append_of_get? hget
  refine ⟨before, after, name, url, scope, inner, hsplit, hbefore, hfollow, ?_⟩
  intro change
  rw [changeAt, hget, hsplit]
  exact Table.insert_append_cons hbefore _ _ after

namespace Registry

variable {registry : Registry}

theorem HoldsAll.append {members members' : List (String × Member)}
    {first second : List (String × Node)} (hfirst : registry.HoldsAll members first)
    (hsecond : registry.HoldsAll members' second) :
    registry.HoldsAll (members ++ members') (first ++ second) := by
  induction first generalizing members with
  | nil =>
    rw [holdsAll_nil.1 hfirst]
    exact hsecond
  | cons child first ih =>
    obtain ⟨member, others, rfl, hmember, hothers⟩ := holdsAll_cons.1 hfirst
    exact holdsAll_cons.2 ⟨member, _, rfl, hmember, ih hothers⟩

/-- Adding a member under a key is adding the tree that it stands for. -/
theorem HoldsAll.insert {members : List (String × Member)} {children : List (String × Node)}
    (h : registry.HoldsAll members children) {member : Member} {node : Node}
    (hnode : registry.Holds member node) (key : String) :
    registry.HoldsAll (Table.insert key member members) (Table.insert key node children) := by
  induction children generalizing members with
  | nil =>
    rw [holdsAll_nil.1 h]
    exact holdsAll_cons.2 ⟨member, [], rfl, hnode, holdsAll_nil.2 rfl⟩
  | cons child rest ih =>
    obtain ⟨k, old⟩ := child
    obtain ⟨oldMember, others, rfl, hold, hothers⟩ := holdsAll_cons.1 h
    by_cases hk : k = key
    · simp only [Table.insert, hk, ↓reduceIte]
      exact holdsAll_cons.2 ⟨member, others, rfl, hnode, hothers⟩
    · simp only [Table.insert, hk, ↓reduceIte]
      exact holdsAll_cons.2 ⟨oldMember, _, rfl, hold, ih hothers⟩

/-! ## What lies in a node -/

/-- A node is another or lies somewhere in it. -/
inductive Reaches (registry : Registry) : NodeId → NodeId → Prop
  | refl (id : NodeId) : Reaches registry id id
  | child {id next target : NodeId} {container : Container} {key : String} :
    registry.cells[id]? = some (.container container) → (key, .node next) ∈ container.children →
    Reaches registry next target → Reaches registry id target

mutual

/-- A node stands for the same tree after an addition to a container that does not lie in it. -/
theorem Holds.add {owner id : NodeId} (key : String) (added : Member) : ∀ node : Node,
    registry.Holds (.node id) node → ¬registry.Reaches id owner →
    (registry.add owner key added).Holds (.node id) node
  | .foreign _, h, _ => absurd h not_holds_foreign
  | .endpoint _, h, hreaches => by
    obtain ⟨id', hid, hcell⟩ := holds_endpoint.1 h
    obtain rfl := Member.node.inj hid
    have hne : owner ≠ id := by
      rintro rfl
      exact hreaches (.refl _)
    exact holds_endpoint.2 ⟨id, rfl, by rw [getElem?_add_of_ne hne, hcell]⟩
  | .group _ _ _ children, h, hreaches => by
    obtain ⟨id', members, hid, hcell, hchildren⟩ := holds_group.1 h
    obtain rfl := Member.node.inj hid
    have hne : owner ≠ id := by
      rintro rfl
      exact hreaches (.refl _)
    refine holds_group.2 ⟨id, members, rfl, by rw [getElem?_add_of_ne hne, hcell], ?_⟩
    refine HoldsAll.add key added children hchildren ?_
    intro childKey next hmem hnext
    exact hreaches (.child hcell hmem hnext)

theorem HoldsAll.add {owner : NodeId} {members : List (String × Member)} (key : String)
    (added : Member) : ∀ children : List (String × Node), registry.HoldsAll members children →
    (∀ childKey next, (childKey, .node next) ∈ members → ¬registry.Reaches next owner) →
    (registry.add owner key added).HoldsAll members children
  | [], h, _ => holdsAll_nil.2 (holdsAll_nil.1 h)
  | (_, node) :: rest, h, hreaches => by
    obtain ⟨member, others, rfl, hnode, hrest⟩ := holdsAll_cons.1 h
    obtain ⟨id, rfl, -⟩ := exists_cell_of_holds hnode
    exact holdsAll_cons.2 ⟨_, others, rfl,
      Holds.add key added node hnode (hreaches _ id (List.mem_cons_self ..)),
      HoldsAll.add key added rest hrest fun childKey next hmem =>
        hreaches childKey next (List.mem_cons_of_mem _ hmem)⟩

end

/-! ## Containers by their keys -/

/-- The container to which keys lead from a container. -/
def locate (registry : Registry) : NodeId → List String → Option NodeId
  | id, [] => some id
  | id, key :: keys =>
    match registry.child? id key with
    | some (.node child) => locate registry child keys
    | _ => none

theorem locate_cons {id child : NodeId} {key : String}
    (h : registry.child? id key = some (.node child)) (keys : List String) :
    registry.locate id (key :: keys) = registry.locate child keys := by
  rw [locate, h]

/-! ## What an added member changes -/

/-- A member that is added inside a child leaves the children on both sides alone. -/
theorem Stores.holdsAll_add {start owner : Nat} {key : String} {old new : Node}
    {before after : List (String × Node)}
    (h : registry.Stores start (cellsBelow start (before ++ (key, old) :: after)))
    (hbefore : AllEnterable before) (hafter : AllEnterable after)
    (hle : start + sizeBelow before ≤ owner) (hlt : owner < start + sizeBelow before + old.size)
    {addedKey : String} {member : Member}
    (hnew : (registry.add owner addedKey member).Holds (.node (start + sizeBelow before)) new) :
    (registry.add owner addedKey member).HoldsAll
      (membersFrom start (before ++ (key, old) :: after)) (before ++ (key, new) :: after) := by
  obtain ⟨hfirst, -, hlast⟩ := h.split
  rw [← length_cellsBelow start before] at hle
  have hfirst := hfirst.add (.inr hle) addedKey member
  have hlast := hlast.add (.inl hlt) addedKey member
  rw [membersFrom_append, membersFrom]
  exact (Stores.holdsAll before hbefore hfirst).append
    (holdsAll_cons.2 ⟨_, _, rfl, hnew, Stores.holdsAll after hafter hlast⟩)

/-- A container of a tree that was entered is found by its keys, in the cells of the tree. A member
    that is added to it is added in the tree, and nothing else in the tree changes. -/
theorem exists_add_below {keys : List String} : ∀ {start : Nat} {branch target : Branch}
    {kind : ContainerKind} {url : Option String} {scope : ScopeId},
    registry.Stores start (.container ⟨kind, branch.name, url, scope,
      membersFrom (start + 1) branch.children⟩ :: cellsBelow (start + 1) branch.children) →
    AllEnterable branch.children → branch.follow keys = some target →
    ∃ owner : Nat, registry.locate start keys = some owner ∧
      start ≤ owner ∧ owner < start + (sizeBelow branch.children + 1) ∧
      ∀ key member node, (registry.add owner key member).Holds member node → ∃ members,
        (registry.add owner key member).cells[start]? =
          some (.container ⟨kind, branch.name, url, scope, members⟩) ∧
        (registry.add owner key member).HoldsAll members
          (changeAt (Table.insert key node) keys branch.children) := by
  induction keys with
  | nil =>
    intro start branch target kind url scope h hchildren _
    refine ⟨start, rfl, Nat.le_refl _, by omega, ?_⟩
    intro key member node hnode
    have hlt : start < registry.cells.length := (List.getElem?_eq_some_iff.1 h.head).1
    refine ⟨Table.insert key member (membersFrom (start + 1) branch.children), ?_, ?_⟩
    · rw [add_eq_set h.head]
      simp [hlt, Container.add]
    · have hkept := h.tail.add (.inl (Nat.lt_succ_self start)) key member
      exact (Stores.holdsAll branch.children hchildren hkept).insert hnode key
  | cons next keys ih =>
    intro start branch target kind url scope h hchildren hfollow
    obtain ⟨before, after, name, url', scope', inner, hsplit, hnew, hinner, hchange⟩ :=
      exists_changeAt_cons hfollow
    have htail := h.tail
    rw [hsplit] at hchildren htail
    obtain ⟨hbefore, ⟨-, hgroup⟩, hafter⟩ := allEnterable_append.1 hchildren
    obtain ⟨-, hstored, -⟩ := htail.split
    obtain ⟨owner, hlocate, hle, hlt, hadd⟩ :=
      @ih _ ⟨branch.path ++ [next], name, inner⟩ _ _ _ _ hstored hgroup hinner
    have hsize : sizeBelow branch.children =
        sizeBelow before + (sizeBelow inner + 1 + sizeBelow after) := by
      rw [hsplit, sizeBelow_append]
      rfl
    simp only at hlt
    refine ⟨owner, ?_, by omega, by omega, ?_⟩
    · have hchild : registry.child? start next = some (.node (start + 1 + sizeBelow before)) := by
        rw [child?, h.head]
        simp only [hsplit, membersFrom_append, membersFrom]
        exact Table.get?_append_cons (by rwa [keys_membersFrom]) _ _
      rw [locate_cons hchild]
      exact hlocate
    · intro key member node hnode
      obtain ⟨members, hcell, hheld⟩ := hadd key member node hnode
      have hne : owner ≠ start := by omega
      refine ⟨membersFrom (start + 1) branch.children, ?_, ?_⟩
      · rw [getElem?_add_of_ne hne]
        exact h.head
      · rw [hchange, hsplit]
        exact htail.holdsAll_add hbefore hafter hle hlt
          (holds_group.2 ⟨_, members, rfl, hcell, hheld⟩)

/-! ## The whole tree -/

/-- A schema that was entered is still there when more nodes have been made. -/
theorem stores_of_enter {schema : Schema} (hknown : schema.AllKnown) (hkeyed : schema.Keyed)
    {earlier : Registry} (hkept : (earlier.enter schema).2.cells <+: registry.cells) :
    registry.Stores (earlier.enter schema).1 (schema.cellsFrom (earlier.enter schema).1) := by
  have hentered := enter_eq (hkeyed _ (List.mem_cons_self ..)).1 (schema.allEnterable hknown hkeyed)
    earlier
  obtain ⟨more, hmore⟩ := hkept
  rw [hentered] at hmore ⊢
  exact stores_append hmore.symm

/-- A schema that was entered is read out as it was. -/
theorem schema?_of_stores {schema : Schema} (hknown : schema.AllKnown) (hkeyed : schema.Keyed)
    {root : NodeId} (h : registry.Stores root (schema.cellsFrom root)) :
    registry.schema? root = some schema :=
  schema?_of_holdsAll h.head
    (Stores.holdsAll schema.children (schema.allEnterable hknown hkeyed) h.tail)

/-- **A member that is added to a container of a tree that was entered** is added to the children of
    this container in the tree, and the rest of the tree stays. -/
theorem exists_add_eq {schema : Schema} (hknown : schema.AllKnown) (hkeyed : schema.Keyed)
    {root : NodeId} (h : registry.Stores root (schema.cellsFrom root)) {container : Branch}
    (hcontainer : container ∈ schema.branches) :
    ∃ owner, registry.locate root container.path = some owner ∧
      ∀ key member node, (registry.add owner key member).Holds member node →
        (registry.add owner key member).schema? root =
          some (schema.changeAt (Table.insert key node) container.path) ∧
        (schema.changeAt (Table.insert key node) container.path).AllKnown := by
  have hchildren : AllEnterable schema.root.children := schema.allEnterable hknown hkeyed
  have hfollow := (Schema.mem_branches_iff hkeyed).1 hcontainer
  obtain ⟨owner, hlocate, -, -, hadd⟩ := exists_add_below h hchildren hfollow
  refine ⟨owner, hlocate, ?_⟩
  intro key member node hnode
  obtain ⟨members, hcell, hheld⟩ := hadd key member node hnode
  exact ⟨schema?_of_holdsAll hcell hheld, Schema.allKnown_iff.2 (HoldsAll.known _ hheld)⟩

end Registry

end ApiScribe
