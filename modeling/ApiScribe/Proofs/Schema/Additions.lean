import ApiScribe.Proofs.Schema.Entered
import ApiScribe.Proofs.Table

set_option autoImplicit false

/-! # What is left of the additions to one container

While members are added to a container, nodes are made, scopes change and members are added to other
containers. For the container itself none of this matters: at the end its children are the table of
what was added to it (`Registry.getElem?_run`), whenever the other changes took place, and the rest
of the registry is what the other changes alone would have left. So two runs that agree on the other
changes and on the table leave the same registry (`Registry.run_eq_of_table`). -/

namespace ApiScribe

/-- The container with several members, added in order. -/
def Container.addAll (container : Container) (pairs : List (String × Member)) : Container :=
  pairs.foldl (fun container pair => container.add pair.1 pair.2) container

theorem Container.addAll_of_empty {container : Container} (h : container.children = [])
    (pairs : List (String × Member)) :
    container.addAll pairs = { container with children := Table.ofList pairs } := by
  obtain ⟨kind, name, url, scope, children⟩ := container
  obtain rfl : children = [] := h
  induction pairs using List.reverseRecOn with
  | nil => rfl
  | append_singleton pairs pair ih =>
    rw [Table.ofList_concat, addAll, List.foldl_append]
    exact congrArg (Container.add · pair.1 pair.2) ih

namespace Registry

/-! ## Runs of changes -/

/-- What can happen to a registry: its scopes change, a node is made, or a member is added to a
    container. -/
inductive Change where
  | scopes (scopes : Scopes)
  | make (cell : Cell)
  | add (owner : NodeId) (key : String) (member : Member)

/-- Whether a change adds a member to a given container. -/
def Change.isFor (owner : NodeId) : Change → Bool
  | .add target _ _ => target = owner
  | _ => false

/-- The registry after one change. -/
def step (registry : Registry) : Change → Registry
  | .scopes scopes => { registry with scopes }
  | .make cell => (registry.register cell).2
  | .add owner key member => registry.add owner key member

/-- The registry after several changes. -/
def run (registry : Registry) (changes : List Change) : Registry :=
  changes.foldl step registry

/-- What the changes add to a container, in order. -/
def addedTo (owner : NodeId) (changes : List Change) : List (String × Member) :=
  changes.filterMap fun
    | .add target key member => if target = owner then some (key, member) else none
    | _ => none

/-- The changes that add nothing to a container. -/
def elsewhere (owner : NodeId) (changes : List Change) : List Change :=
  changes.filter fun change => !change.isFor owner

/-- Adds members to one container of a registry, in order. -/
def addAll (registry : Registry) (owner : NodeId) (pairs : List (String × Member)) : Registry :=
  pairs.foldl (fun registry pair => registry.add owner pair.1 pair.2) registry

variable {registry : Registry} {owner : NodeId} {container : Container}

/-! ## One change -/

/-- A change that adds nothing to a container leaves its cell alone. -/
theorem getElem?_step {change : Change} (hchange : change.isFor owner = false)
    (howner : registry.cells[owner]? = some (.container container)) :
    (registry.step change).cells[owner]? = some (.container container) := by
  cases change with
  | scopes scopes => exact howner
  | make cell =>
    rw [step, register, List.getElem?_append_left (List.getElem?_eq_some_iff.1 howner).1]
    exact howner
  | add target key member =>
    have hne : target ≠ owner := by simpa [Change.isFor] using hchange
    rw [step, getElem?_add_of_ne hne]
    exact howner

/-- A change that adds nothing to a container can as well be made before an addition to it. -/
theorem step_add {change : Change} (hchange : change.isFor owner = false)
    (howner : registry.cells[owner]? = some (.container container)) (key : String)
    (member : Member) :
    (registry.add owner key member).step change =
      (registry.step change).add owner key member := by
  cases change with
  | scopes scopes => rfl
  | make cell =>
    have hlt : owner < registry.cells.length := (List.getElem?_eq_some_iff.1 howner).1
    rw [add_eq_set howner, add_eq_set (getElem?_step hchange howner)]
    simp [step, register, List.set_append_left, hlt]
  | add target key' member' =>
    have hne : target ≠ owner := by simpa [Change.isFor] using hchange
    simp only [step, add]
    rw [List.modify_modify_ne _ _ _ hne]

/-! ## Several changes -/

theorem getElem?_run_of_elsewhere {changes : List Change}
    (hchanges : ∀ change ∈ changes, change.isFor owner = false)
    (howner : registry.cells[owner]? = some (.container container)) :
    (registry.run changes).cells[owner]? = some (.container container) := by
  induction changes generalizing registry with
  | nil => exact howner
  | cons change rest ih =>
    exact ih (fun other hother => hchanges other (List.mem_cons_of_mem _ hother))
      (getElem?_step (hchanges change (List.mem_cons_self ..)) howner)

theorem run_add {changes : List Change} (hchanges : ∀ change ∈ changes, change.isFor owner = false)
    (howner : registry.cells[owner]? = some (.container container)) (key : String)
    (member : Member) :
    (registry.add owner key member).run changes =
      (registry.run changes).add owner key member := by
  induction changes generalizing registry with
  | nil => rfl
  | cons change rest ih =>
    have hchange := hchanges change (List.mem_cons_self ..)
    have hrest := fun other hother => hchanges other (List.mem_cons_of_mem _ hother)
    show ((registry.add owner key member).step change).run rest = _
    rw [step_add hchange howner, ih hrest (getElem?_step hchange howner)]
    rfl

theorem isFor_of_mem_elsewhere {changes : List Change} :
    ∀ change ∈ elsewhere owner changes, change.isFor owner = false := by
  intro change hchange
  simpa using (List.mem_filter.1 hchange).2

/-- The additions to a container can wait until all other changes have been made. -/
theorem run_eq_addAll (howner : registry.cells[owner]? = some (.container container))
    (changes : List Change) :
    registry.run changes =
      (registry.run (elsewhere owner changes)).addAll owner (addedTo owner changes) := by
  induction changes generalizing registry container with
  | nil => rfl
  | cons change rest ih =>
    show (registry.step change).run rest = _
    cases hchange : change.isFor owner with
    | false =>
      have helsewhere : elsewhere owner (change :: rest) = change :: elsewhere owner rest := by
        simp [elsewhere, hchange]
      have hadded : addedTo owner (change :: rest) = addedTo owner rest := by
        cases change with
        | add target key member =>
          have hne : target ≠ owner := by simpa [Change.isFor] using hchange
          simp [addedTo, hne]
        | _ => rfl
      rw [ih (getElem?_step hchange howner), helsewhere, hadded]
      rfl
    | true =>
      cases change with
      | scopes scopes => cases hchange
      | make cell => cases hchange
      | add target key member =>
        obtain rfl : target = owner := by simpa [Change.isFor] using hchange
        have hadd : (registry.add target key member).cells[target]? =
            some (.container (container.add key member)) := by
          rw [add_eq_set howner]
          exact List.getElem?_set_self (List.getElem?_eq_some_iff.1 howner).1
        show (registry.add target key member).run rest = _
        rw [ih hadd, run_add isFor_of_mem_elsewhere howner]
        simp [elsewhere, addedTo, Change.isFor, addAll]

/-! ## The container at the end -/

/-- Several additions change one cell. -/
theorem addAll_eq_set (howner : registry.cells[owner]? = some (.container container))
    (pairs : List (String × Member)) :
    registry.addAll owner pairs = { registry with
      cells := registry.cells.set owner (.container (container.addAll pairs)) } := by
  induction pairs generalizing registry container with
  | nil =>
    obtain ⟨hlt, hcell⟩ := List.getElem?_eq_some_iff.1 howner
    simp [addAll, Container.addAll, ← hcell]
  | cons pair rest ih =>
    have hadd : (registry.add owner pair.1 pair.2).cells[owner]? =
        some (.container (container.add pair.1 pair.2)) := by
      rw [add_eq_set howner]
      exact List.getElem?_set_self (List.getElem?_eq_some_iff.1 howner).1
    show (registry.add owner pair.1 pair.2).addAll owner rest = _
    rw [ih hadd, add_eq_set howner, List.set_set]
    rfl

/-- **A run leaves the table of what was added** in a container that was empty, and elsewhere what
    the other changes leave. -/
theorem run_eq_set (howner : registry.cells[owner]? = some (.container container))
    (hempty : container.children = []) (changes : List Change) :
    registry.run changes = { registry.run (elsewhere owner changes) with
      cells := (registry.run (elsewhere owner changes)).cells.set owner (.container
        { container with children := Table.ofList (addedTo owner changes) }) } := by
  rw [run_eq_addAll howner,
    addAll_eq_set (getElem?_run_of_elsewhere isFor_of_mem_elsewhere howner),
    Container.addAll_of_empty hempty]

theorem getElem?_run (howner : registry.cells[owner]? = some (.container container))
    (hempty : container.children = []) (changes : List Change) :
    (registry.run changes).cells[owner]? =
      some (.container { container with children := Table.ofList (addedTo owner changes) }) := by
  have helsewhere : (registry.run (elsewhere owner changes)).cells[owner]? = _ :=
    getElem?_run_of_elsewhere isFor_of_mem_elsewhere howner
  rw [run_eq_set howner hempty]
  exact List.getElem?_set_self (List.getElem?_eq_some_iff.1 helsewhere).1

/-- Runs that agree on the other changes and on the table of what is added leave the same
    registry. -/
theorem run_eq_of_table (howner : registry.cells[owner]? = some (.container container))
    (hempty : container.children = []) {changes changes' : List Change}
    (helsewhere : elsewhere owner changes' = elsewhere owner changes)
    (htable : Table.ofList (addedTo owner changes') = Table.ofList (addedTo owner changes)) :
    registry.run changes' = registry.run changes := by
  rw [run_eq_set howner hempty, run_eq_set howner hempty changes, helsewhere, htable]

end Registry

end ApiScribe
