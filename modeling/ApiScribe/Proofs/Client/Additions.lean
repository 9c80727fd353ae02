import ApiScribe.Proofs.Client.Edits
import ApiScribe.Proofs.Client.Translation
import ApiScribe.Proofs.Schema.Acyclic
import ApiScribe.Proofs.Schema.Additions

set_option autoImplicit false

/-! # What a client shows of the additions to its root

A key may be given to a container again, with a node of the other kind. It then keeps its place
among the keys but moves between the methods and the getters of the class, which are two lists. Each
of them still stands in the order in which the keys were first added (`ListsLast`), since both are
read off one table. Of the history nothing else is left: the module is the one that comes of adding
only the last node of every key (`additions_show_last`). -/

namespace ApiScribe.Client

open Registry (Change addedTo elsewhere)

/-- A class lists the keys that were added to its container: those whose last node is an endpoint as
    methods, those whose last node is a group as getters, each in the order of first addition and
    once. The members are made from the last nodes. -/
structure ListsLast (options : Options) (registry : Registry) (added : List (String × Member))
    (decl : Code.ClassDecl) : Prop where
  methods : decl.methods.map (·.name) = (added.map Prod.fst).eraseDups.filter fun key =>
    (Table.lastOf added key).any registry.isEndpoint
  getters : decl.getters.map (·.name) = (added.map Prod.fst).eraseDups.filter fun key =>
    (Table.lastOf added key).any registry.isGroup
  once : (decl.methods.map (·.name) ++ decl.getters.map (·.name)).Nodup
  method : ∀ {key id endpoint}, Table.lastOf added key = some (.node id) →
    registry.cells[id]? = some (.endpoint endpoint) → methodOf options key endpoint ∈ decl.methods
  getter : ∀ {key id name url scope members}, Table.lastOf added key = some (.node id) →
    registry.cells[id]? = some (.container ⟨.group, name, url, scope, members⟩) →
    { name := key, target := groupClassName key name options.groupSuffix } ∈ decl.getters

/-- The keys of the members of one kind, in a container that was filled by additions. -/
theorem keys_of_kind {registry : Registry} {added : List (String × Member)}
    {children : List (String × Node)} (h : registry.HoldsAll (Table.ofList added) children)
    {p : Member → Bool} {q : Node → Bool}
    (hkind : ∀ {member node}, registry.Holds member node → p member = q node) :
    (children.filter fun child => q child.2).map Prod.fst =
      (added.map Prod.fst).eraseDups.filter fun key => (Table.lastOf added key).any p := by
  rw [h.map_fst_filter hkind, Table.map_fst_filter (Table.distinct_ofList added), Table.keys_ofList]
  simp only [Table.get?_ofList]

theorem listsLast_classOf (options : Options) {registry : Registry}
    {added : List (String × Member)} {branch : Branch}
    (h : registry.HoldsAll (Table.ofList added) branch.children)
    (hknown : ∀ child ∈ branch.children, child.2.isForeign = false) :
    ListsLast options registry added (classOf options branch) := by
  have hmethods : (methodsOf options branch.children).map (·.name) = _ :=
    names_methodsOf options branch.children
  have hgetters : (gettersOf options branch.children).map (·.name) = _ :=
    names_gettersOf options branch.children
  constructor
  case methods =>
    rw [classOf, hmethods, map_fst_endpointsOf, keys_of_kind h fun h => h.kind_eq.1]
  case getters =>
    rw [classOf, hgetters, map_fst_groupsOf, keys_of_kind h fun h => h.kind_eq.2]
  case once =>
    rw [classOf, hmethods, hgetters, (keys_perm hknown).nodup_iff, h.map_fst]
    exact Table.distinct_ofList added
  case method =>
    intro key id endpoint hlast hcell
    rw [← Table.get?_ofList] at hlast
    obtain ⟨node, hchild, hnode⟩ := h.exists_mem (Table.mem_of_get? hlast)
    obtain rfl := hnode.unique node _ (Registry.holds_endpoint.2 ⟨id, rfl, hcell⟩)
    exact List.mem_map_of_mem (mem_endpointsOf_of_mem hchild)
  case getter =>
    intro key id name url scope members hlast hcell
    rw [← Table.get?_ofList] at hlast
    obtain ⟨node, hchild, hnode⟩ := h.exists_mem (Table.mem_of_get? hlast)
    obtain ⟨inner, rfl⟩ := hnode.exists_group hcell
    exact List.mem_map_of_mem (mem_groupsOf.2 ⟨url, scope, inner, hchild⟩)

/-- **A container keeps the first place and the last node of every key**, and so does its client.
    Members are added to a container that was empty, while anything else happens to the registry.
    Its keys are then distinct and in the order of first addition, and each holds what was added
    last. If no cycle is below it and only endpoints and groups stand there, it can be built, and
    its class lists the last nodes. In any case its module is that of every run with the same other
    changes that adds only the last node of every key, once each and in order. -/
theorem additions_show_last {registry : Registry} {owner : NodeId} {container : Container}
    (howner : registry.cells[owner]? = some (.container container))
    (hempty : container.children = []) (changes : List Change) :
    (∃ children, (registry.run changes).cells[owner]? =
        some (.container { container with children }) ∧ children.Distinct ∧
      children.keys = ((addedTo owner changes).map Prod.fst).eraseDups ∧
      ∀ key, children.get? key = Table.lastOf (addedTo owner changes) key) ∧
    (∀ options, (registry.run changes).NoCycleBelow owner →
      (registry.run changes).KnownBelow owner → ∃ unit decl,
        moduleOf? options (registry.run changes) owner = some (.ok unit) ∧
        unit.classes[0]? = some decl ∧
        ListsLast options (registry.run changes) (addedTo owner changes) decl) ∧
    (∀ options changes', elsewhere owner changes' = elsewhere owner changes →
      addedTo owner changes' = Table.lastPairs (addedTo owner changes) →
      moduleOf? options (registry.run changes') owner =
        moduleOf? options (registry.run changes) owner) := by
  have hcell := Registry.getElem?_run howner hempty changes
  refine ⟨⟨_, hcell, Table.distinct_ofList _, Table.keys_ofList _, Table.get?_ofList _⟩, ?_, ?_⟩
  · intro options hcycle hknown
    obtain ⟨children, hchildren⟩ := Registry.exists_holdsAll_below hcycle hknown hcell
    let schema : Schema := ⟨container.name, container.url, container.scope, children⟩
    have hschema : (registry.run changes).schema? owner = some schema :=
      Registry.schema?_of_holdsAll hcell hchildren
    have hall : schema.AllKnown := Schema.allKnown_iff.2 (Registry.HoldsAll.known _ hchildren)
    refine ⟨⟨options.imports, schema.branches.map (classOf options)⟩, classOf options schema.root,
      ?_, rfl, listsLast_classOf options hchildren (hall _ (List.mem_cons_self ..))⟩
    rw [moduleOf?, hschema, Option.map_some, ofSchema_eq_ok options hall]
  · intro options changes' helsewhere hadded
    have htable : Table.ofList (addedTo owner changes') = Table.ofList (addedTo owner changes) := by
      rw [hadded, Table.ofList_lastPairs]
    rw [Registry.run_eq_of_table howner hempty helsewhere htable]

/-- A root with nothing in it. -/
def emptyRoot : Registry where
  cells := [.container ⟨.schema, some "Menu", none, 0, []⟩]

/-- An endpoint is replaced by a group and a group by an endpoint, while the group is filled and
    further nodes are made. -/
def menuChanges : List Change := [
  .make (.endpoint ⟨some "/soups", .get none, 1⟩),
  .make (.container ⟨.group, none, none, 2, []⟩),
  .add 0 "soups" (.node 1),
  .add 0 "bar" (.node 2),
  .add 2 "list" (.node 1),
  .add 0 "soups" (.node 2),
  .make (.endpoint ⟨some "/bar", .post none, 3⟩),
  .add 0 "bill" (.node 1),
  .add 0 "bar" (.node 3)]

/-- The same nodes, and only the last additions to the root. -/
def menuOutcome : List Change := [
  .make (.endpoint ⟨some "/soups", .get none, 1⟩),
  .make (.container ⟨.group, none, none, 2, []⟩),
  .add 2 "list" (.node 1),
  .make (.endpoint ⟨some "/bar", .post none, 3⟩),
  .add 0 "soups" (.node 2),
  .add 0 "bar" (.node 3),
  .add 0 "bill" (.node 1)]

theorem additions_show_last_menu : ∃ unit decl,
    (emptyRoot.run menuChanges).NoCycleBelow 0 ∧ (emptyRoot.run menuChanges).KnownBelow 0 ∧
      moduleOf? {} (emptyRoot.run menuChanges) 0 = some (.ok unit) ∧
      moduleOf? {} (emptyRoot.run menuOutcome) 0 = some (.ok unit) ∧
      unit.classes[0]? = some decl ∧
      decl.methods.map (·.name) = ["bar", "bill"] ∧ decl.getters.map (·.name) = ["soups"] ∧
      methodOf {} "bar" ⟨some "/bar", .post none, 3⟩ ∈ decl.methods := by
  have hcells : (emptyRoot.run menuChanges).cells = [
      .container ⟨.schema, some "Menu", none, 0,
        [("soups", .node 2), ("bar", .node 3), ("bill", .node 1)]⟩,
      .endpoint ⟨some "/soups", .get none, 1⟩,
      .container ⟨.group, none, none, 2, [("list", .node 1)]⟩,
      .endpoint ⟨some "/bar", .post none, 3⟩] := rfl
  have hcontainers : ∀ {id container},
      (emptyRoot.run menuChanges).cells[id]? = some (.container container) →
      id = 0 ∧ container.children = [("soups", .node 2), ("bar", .node 3), ("bill", .node 1)] ∨
      id = 2 ∧ container.children = [("list", .node 1)] := by
    intro id container hcell
    rw [hcells] at hcell
    match id with
    | 0 => exact .inl ⟨rfl, Cell.container.inj (Option.some.inj hcell) ▸ rfl⟩
    | 2 => exact .inr ⟨rfl, Cell.container.inj (Option.some.inj hcell) ▸ rfl⟩
    | 1 | 3 | _ + 4 => cases hcell
  -- the root lies above the group, and the group above the endpoints
  let rank : NodeId → Nat := fun id => if id = 0 then 2 else if id = 2 then 1 else 0
  have hcycle : (emptyRoot.run menuChanges).NoCycleBelow 0 := by
    refine Registry.noCycleBelow_of_rank rank ?_ 0
    rintro id next ⟨container, key, hcell, hmem⟩
    rcases hcontainers hcell with ⟨rfl, hchildren⟩ | ⟨rfl, hchildren⟩ <;> rw [hchildren] at hmem
    · have hnext : next = 2 ∨ next = 3 ∨ next = 1 := by grind
      rcases hnext with rfl | rfl | rfl <;> decide
    · obtain rfl : next = 1 := by grind
      decide
  have hknown : (emptyRoot.run menuChanges).KnownBelow 0 := by
    intro id container _ hcell
    rcases hcontainers hcell with ⟨rfl, hchildren⟩ | ⟨rfl, hchildren⟩ <;> rw [hchildren] <;> decide
  obtain ⟨-, hlists, hsame⟩ := @additions_show_last emptyRoot 0 _ rfl rfl menuChanges
  obtain ⟨unit, decl, hunit, hdecl, hlast⟩ := hlists {} hcycle hknown
  refine ⟨unit, decl, hcycle, hknown, hunit, ?_, hdecl, ?_, ?_, ?_⟩
  · exact (hsame {} menuOutcome rfl (by decide)).trans hunit
  · rw [hlast.methods]
    decide
  · rw [hlast.getters]
    decide
  · exact hlast.method (show _ = some (Member.node 3) from rfl) rfl

end ApiScribe.Client
