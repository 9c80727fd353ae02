import ApiScribe.Proofs.Schema.Registered

set_option autoImplicit false

/-! # Trees entered into a registry

A tree that is entered shares nothing: its nodes take consecutive cells, a container before its
children and the nodes of each child together (`Registry.enter_eq`). A registry that has these cells
stands for the tree, whatever else is in it (`Registry.Stores.holdsAll`). -/

namespace ApiScribe

/-! ## The cells of a tree -/

/-- What a container of a tree lists if the nodes of its children take the cells from a number on. -/
def membersFrom (start : NodeId) : List (String × Node) → Table String Member
  | [] => []
  | (key, node) :: rest => (key, .node start) :: membersFrom (start + node.size) rest

mutual

/-- The cells of a node that is entered at a number. -/
def Node.cellsFrom (start : NodeId) : Node → List Cell
  | .endpoint endpoint => [.endpoint endpoint]
  | .group name url scope children =>
    .container ⟨.group, name, url, scope, membersFrom (start + 1) children⟩ ::
      cellsBelow (start + 1) children
  | .foreign _ => []

/-- The cells of nodes that are entered one after the other. -/
def cellsBelow (start : NodeId) : List (String × Node) → List Cell
  | [] => []
  | (_, node) :: rest => node.cellsFrom start ++ cellsBelow (start + node.size) rest

end

/-- The cells of a schema that is entered at a number. -/
def Schema.cellsFrom (start : NodeId) (schema : Schema) : List Cell :=
  .container ⟨.schema, schema.name, schema.url, schema.scope,
    membersFrom (start + 1) schema.children⟩ :: cellsBelow (start + 1) schema.children

mutual

theorem Node.length_cellsFrom (start : NodeId) : ∀ node : Node,
    (node.cellsFrom start).length = node.size
  | .endpoint _ => rfl
  | .foreign _ => rfl
  | .group _ _ _ children => by
    rw [Node.cellsFrom, List.length_cons, length_cellsBelow (start + 1) children, Node.size]

theorem length_cellsBelow (start : NodeId) : ∀ children : List (String × Node),
    (cellsBelow start children).length = sizeBelow children
  | [] => rfl
  | (_, node) :: rest => by
    rw [cellsBelow, List.length_append, node.length_cellsFrom, length_cellsBelow _ rest, sizeBelow]

end

theorem membersFrom_append (start : NodeId) (first second : List (String × Node)) :
    membersFrom start (first ++ second) =
      membersFrom start first ++ membersFrom (start + sizeBelow first) second := by
  induction first generalizing start with
  | nil => rfl
  | cons child first ih => simp [membersFrom, ih, sizeBelow, Nat.add_assoc]

theorem cellsBelow_append (start : NodeId) (first second : List (String × Node)) :
    cellsBelow start (first ++ second) =
      cellsBelow start first ++ cellsBelow (start + sizeBelow first) second := by
  induction first generalizing start with
  | nil => rfl
  | cons child first ih => simp [cellsBelow, ih, sizeBelow, Nat.add_assoc]

theorem sizeBelow_append (first second : List (String × Node)) :
    sizeBelow (first ++ second) = sizeBelow first + sizeBelow second := by
  induction first with
  | nil => simp [sizeBelow]
  | cons child first ih => simp [sizeBelow, ih, Nat.add_assoc]

theorem keys_membersFrom (start : NodeId) (children : List (String × Node)) :
    (membersFrom start children).keys = Table.keys children := by
  induction children generalizing start with
  | nil => rfl
  | cons child rest ih => simpa [membersFrom, Table.keys] using ih _

/-! ## Trees that can be entered -/

mutual

/-- A registry can have a counterpart of the node: nothing in it is foreign, and no key stands twice
    in one container. -/
def Node.Enterable : Node → Prop
  | .endpoint _ => True
  | .group _ _ _ children => Table.Distinct children ∧ AllEnterable children
  | .foreign _ => False

/-- A registry can have counterparts of all these nodes. -/
def AllEnterable : List (String × Node) → Prop
  | [] => True
  | (_, node) :: rest => node.Enterable ∧ AllEnterable rest

end

theorem allEnterable_append {first second : List (String × Node)} :
    AllEnterable (first ++ second) ↔ AllEnterable first ∧ AllEnterable second := by
  induction first with
  | nil => simp [AllEnterable]
  | cons child first ih => simp [AllEnterable, ih, and_assoc]

mutual

theorem Node.enterable_of_branches {path : List String} : ∀ node : Node, node.isForeign = false →
    (∀ branch ∈ node.branches path, Table.Distinct branch.children ∧
      ∀ child ∈ branch.children, child.2.isForeign = false) → node.Enterable
  | .endpoint _, _, _ => trivial
  | .foreign _, hnode, _ => by simp [Node.isForeign] at hnode
  | .group name url scope children, _, h => by
    rw [Node.branches] at h
    obtain ⟨hdistinct, hchildren⟩ := h _ (List.mem_cons_self ..)
    exact ⟨hdistinct, allEnterable_of_branches children hchildren
      fun branch hb => h branch (List.mem_cons_of_mem _ hb)⟩

theorem allEnterable_of_branches {path : List String} : ∀ children : List (String × Node),
    (∀ child ∈ children, child.2.isForeign = false) →
    (∀ branch ∈ branchesBelow path children, Table.Distinct branch.children ∧
      ∀ child ∈ branch.children, child.2.isForeign = false) → AllEnterable children
  | [], _, _ => trivial
  | (key, node) :: rest, hchildren, h => by
    rw [branchesBelow] at h
    exact ⟨node.enterable_of_branches (hchildren _ (List.mem_cons_self ..))
        fun branch hb => h branch (List.mem_append_left _ hb),
      allEnterable_of_branches rest (fun child hc => hchildren child (List.mem_cons_of_mem _ hc))
        fun branch hb => h branch (List.mem_append_right _ hb)⟩

end

/-- A schema without foreign nodes and repeated keys can be entered. -/
theorem Schema.allEnterable {schema : Schema} (hknown : schema.AllKnown) (hkeyed : schema.Keyed) :
    AllEnterable schema.children :=
  allEnterable_of_branches schema.children (hknown _ (List.mem_cons_self ..)) fun branch hb =>
    ⟨(hkeyed branch (List.mem_cons_of_mem _ hb)).1, hknown branch (List.mem_cons_of_mem _ hb)⟩

namespace Registry

/-! ## Entering -/

theorem add_eq_set {registry : Registry} {owner : NodeId} {container : Container}
    (h : registry.cells[owner]? = some (.container container)) (key : String) (member : Member) :
    registry.add owner key member =
      { registry with cells := registry.cells.set owner (.container (container.add key member)) } := by
  rw [add, List.modify_eq_set_getElem?, h]
  rfl

mutual

/-- A node that is entered takes the next cells. -/
theorem enterNode_eq : ∀ (node : Node) (registry : Registry), node.Enterable →
    registry.enterNode node = some (.node registry.cells.length,
      { registry with cells := registry.cells ++ node.cellsFrom registry.cells.length })
  | .endpoint _, _, _ => rfl
  | .foreign _, _, h => by simp [Node.Enterable] at h
  | .group name url scope children, registry, ⟨hdistinct, hchildren⟩ => by
    let container : Container := ⟨.group, name, url, scope, []⟩
    have howner : (registry.register (.container container)).2.cells[registry.cells.length]? =
        some (.container container) := by simp [register]
    have hkeys : (container.children.keys ++ Table.keys children).Nodup := hdistinct
    rw [enterNode]
    show some (_, (registry.register (.container container)).2.enterChildren
      registry.cells.length children) = _
    rw [enterChildren_eq _ children _ container howner hkeys hchildren]
    simp [register, container, Node.cellsFrom]

/-- Children that are entered take the next cells, and their container lists them. -/
theorem enterChildren_eq (owner : NodeId) : ∀ (children : List (String × Node))
    (registry : Registry) (container : Container),
    registry.cells[owner]? = some (.container container) →
    (container.children.keys ++ Table.keys children).Nodup → AllEnterable children →
    registry.enterChildren owner children = { registry with
      cells := registry.cells.set owner (.container { container with
          children := container.children ++ membersFrom registry.cells.length children }) ++
        cellsBelow registry.cells.length children }
  | [], registry, container, howner, _, _ => by
    obtain ⟨hlt, hget⟩ := List.getElem?_eq_some_iff.1 howner
    simp [enterChildren, membersFrom, cellsBelow, ← hget]
  | (key, node) :: rest, registry, container, howner, hkeys, ⟨hnode, hrest⟩ => by
    have hlt := (List.getElem?_eq_some_iff.1 howner).1
    have hkeys : (container.children.keys ++ key :: Table.keys rest).Nodup := hkeys
    have hnew : key ∉ container.children.keys := by
      intro hmem
      exact (List.nodup_append.1 hkeys).2.2 key hmem key (List.mem_cons_self ..) rfl
    -- the new cells are behind that of the container
    let entered := { registry with
      cells := registry.cells ++ node.cellsFrom registry.cells.length }
    have hentered : entered.cells[owner]? = some (.container container) := by
      rw [← howner]
      exact List.getElem?_append_left hlt
    let added := container.add key (.node registry.cells.length)
    have hadded : added.children = container.children ++ [(key, .node registry.cells.length)] :=
      Table.insert_of_notMem hnew _
    let next := { registry with cells := entered.cells.set owner (.container added) }
    have howner' : next.cells[owner]? = some (.container added) := by
      simp [next, entered, Nat.lt_add_right _ hlt]
    have hlength : next.cells.length = registry.cells.length + node.size := by
      simp [next, entered, Node.length_cellsFrom]
    have hkeys' : (added.children.keys ++ Table.keys rest).Nodup := by
      rw [hadded]
      simpa [Table.keys] using hkeys
    rw [enterChildren, enterNode_eq node registry hnode]
    show (entered.add owner key (.node registry.cells.length)).enterChildren owner rest = _
    rw [add_eq_set hentered]
    show next.enterChildren owner rest = _
    rw [enterChildren_eq owner rest next added howner' hkeys' hrest, hlength, hadded]
    simp [next, entered, added, membersFrom, cellsBelow, List.set_append_left, hlt, Container.add]

end

/-- **A schema that is entered takes the next cells**, the root first. -/
theorem enter_eq {schema : Schema} (hdistinct : Table.Distinct schema.children)
    (hchildren : AllEnterable schema.children) (registry : Registry) :
    registry.enter schema = (registry.cells.length,
      { registry with cells := registry.cells ++ schema.cellsFrom registry.cells.length }) := by
  let container : Container := ⟨.schema, schema.name, schema.url, schema.scope, []⟩
  have howner : (registry.register (.container container)).2.cells[registry.cells.length]? =
      some (.container container) := by simp [register]
  have hkeys : (container.children.keys ++ Table.keys schema.children).Nodup := hdistinct
  rw [enter]
  show (_, (registry.register (.container container)).2.enterChildren
    registry.cells.length schema.children) = _
  rw [enterChildren_eq _ schema.children _ container howner hkeys hchildren]
  simp [register, container, Schema.cellsFrom]

/-! ## What stored cells stand for -/

/-- A registry has the cells from a number on. -/
def Stores (registry : Registry) (start : NodeId) (cells : List Cell) : Prop :=
  ∀ i < cells.length, registry.cells[start + i]? = cells[i]?

variable {registry : Registry} {start : Nat}

theorem stores_append {first cells more : List Cell}
    (h : registry.cells = first ++ cells ++ more) : registry.Stores first.length cells := by
  intro i hi
  rw [h, List.append_assoc, List.getElem?_append_right (Nat.le_add_right ..),
    Nat.add_sub_cancel_left, List.getElem?_append_left hi]

theorem Stores.head {cell : Cell} {cells : List Cell} (h : registry.Stores start (cell :: cells)) :
    registry.cells[start]? = some cell := by
  simpa using h 0 (Nat.zero_lt_succ _)

theorem Stores.tail {cell : Cell} {cells : List Cell} (h : registry.Stores start (cell :: cells)) :
    registry.Stores (start + 1) cells := by
  intro i hi
  have := h (i + 1) (Nat.succ_lt_succ hi)
  rwa [List.getElem?_cons_succ, ← Nat.add_assoc, Nat.add_right_comm] at this

theorem Stores.left {first second : List Cell} (h : registry.Stores start (first ++ second)) :
    registry.Stores start first := by
  intro i hi
  rw [h i (by rw [List.length_append]; omega), List.getElem?_append_left hi]

theorem Stores.right {first second : List Cell} (h : registry.Stores start (first ++ second)) :
    registry.Stores (start + first.length) second := by
  intro i hi
  rw [Nat.add_assoc, h _ (by rw [List.length_append]; omega),
    List.getElem?_append_right (Nat.le_add_right ..), Nat.add_sub_cancel_left]

theorem getElem?_add_of_ne {owner id : NodeId} (h : owner ≠ id) (key : String) (member : Member) :
    (registry.add owner key member).cells[id]? = registry.cells[id]? :=
  List.getElem?_modify_ne _ _ h

/-- The cells of children are those of the ones before a child, its own, and those of the ones behind. -/
theorem Stores.split {key : String} {node : Node} {before after : List (String × Node)}
    (h : registry.Stores start (cellsBelow start (before ++ (key, node) :: after))) :
    registry.Stores start (cellsBelow start before) ∧
      registry.Stores (start + sizeBelow before) (node.cellsFrom (start + sizeBelow before)) ∧
      registry.Stores (start + sizeBelow before + node.size)
        (cellsBelow (start + sizeBelow before + node.size) after) := by
  rw [cellsBelow_append, cellsBelow] at h
  have hright := h.right
  rw [length_cellsBelow] at hright
  have hbehind := hright.right
  rw [node.length_cellsFrom] at hbehind
  exact ⟨h.left, hright.left, hbehind⟩

/-- A member that is added to a container outside of the cells leaves them as they are. -/
theorem Stores.add {cells : List Cell} (h : registry.Stores start cells) {owner : Nat}
    (howner : owner < start ∨ start + cells.length ≤ owner) (key : String) (member : Member) :
    (registry.add owner key member).Stores start cells := by
  intro i hi
  have hne : owner ≠ start + i := by omega
  rw [← h i hi, getElem?_add_of_ne hne]

mutual

/-- The cells of a node stand for it. -/
theorem Stores.holds {start : NodeId} : ∀ node : Node, node.Enterable →
    registry.Stores start (node.cellsFrom start) → registry.Holds (.node start) node
  | .endpoint _, _, h => holds_endpoint.2 ⟨start, rfl, h.head⟩
  | .foreign _, hnode, _ => by simp [Node.Enterable] at hnode
  | .group _ _ _ children, hnode, h =>
    holds_group.2 ⟨start, _, rfl, h.head, Stores.holdsAll children hnode.2 h.tail⟩

/-- **The cells of children stand for them.** -/
theorem Stores.holdsAll {start : NodeId} : ∀ children : List (String × Node),
    AllEnterable children → registry.Stores start (cellsBelow start children) →
    registry.HoldsAll (membersFrom start children) children
  | [], _, _ => holdsAll_nil.2 rfl
  | (_, node) :: rest, ⟨hnode, hrest⟩, h => by
    rw [cellsBelow] at h
    have hright := h.right
    rw [node.length_cellsFrom] at hright
    exact holdsAll_cons.2 ⟨.node start, _, rfl, Stores.holds node hnode h.left,
      Stores.holdsAll rest hrest hright⟩

end

end Registry

end ApiScribe
