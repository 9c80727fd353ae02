import ApiScribe.Client.Source
import ApiScribe.Proofs.Schema.Branches

set_option autoImplicit false

/-! # What the walk leaves behind

The walk enters a class before it visits the children, and comes back to a class after it has been
arbitrarily deep below one of its children. Still each class ends with the members that its own
branch accounts for and no others, in the order of the branches (`draft_eq_ok`): a visit below a
class that was entered adds the members of the children to it, leaves the other classes alone, and
puts the classes of the branches below at the end (`visitAll_eq_ok`). -/

namespace ApiScribe

namespace Branch

/-- The name of the class of a branch. -/
def className (options : Client.Options) (branch : Branch) : String :=
  match branch.path.getLast? with
  | none => branch.name.getD options.rootName
  | some key => Client.groupClassName key branch.name options.groupSuffix

theorem className_below (options : Client.Options) (path : List String) (key : String)
    (name : Option String) (children : List (String × Node)) :
    className options ⟨path ++ [key], name, children⟩ =
      Client.groupClassName key name options.groupSuffix := by
  simp [className]

end Branch

namespace Client

/-! ## The members that children account for -/

/-- The methods of the endpoints among children. -/
def methodsOf (options : Options) (children : List (String × Node)) : List Code.Method :=
  (endpointsOf children).map fun child => methodOf options child.1 child.2

/-- The getters of the groups among children. -/
def gettersOf (options : Options) (children : List (String × Node)) : List Code.Getter :=
  (groupsOf children).map fun child =>
    { name := child.1, target := groupClassName child.1 child.2 options.groupSuffix }

/-- The class of a branch. -/
def classOf (options : Options) (branch : Branch) : Code.ClassDecl where
  name := branch.className options
  exported := branch.path.isEmpty
  methods := methodsOf options branch.children
  getters := gettersOf options branch.children

/-- A getter stands for a group, and its target is the class of that group. -/
theorem exists_hasGroup_of_mem_gettersOf {options : Options} {container : Branch}
    {getter : Code.Getter} (h : getter ∈ gettersOf options container.children) :
    ∃ inner, container.HasGroup getter.name inner ∧ inner.className options = getter.target := by
  obtain ⟨⟨key, name⟩, hgroup, rfl⟩ := List.mem_map.1 h
  obtain ⟨url, scope, children, hchild⟩ := mem_groupsOf.1 hgroup
  exact ⟨⟨container.path ++ [key], name, children⟩, ⟨rfl, url, scope, hchild⟩,
    Branch.className_below options container.path key name children⟩

theorem exists_getter_of_hasGroup (options : Options) {container inner : Branch} {key : String}
    (h : container.HasGroup key inner) :
    ∃ getter ∈ gettersOf options container.children,
      getter.name = key ∧ getter.target = inner.className options := by
  obtain ⟨hpath, url, scope, hchild⟩ := h
  refine ⟨_, List.mem_map_of_mem (mem_groupsOf.2 ⟨url, scope, inner.children, hchild⟩), rfl, ?_⟩
  rw [Branch.className, hpath, List.getLast?_concat]

/-- A class with the members of further children. -/
def withMembers (options : Options) (children : List (String × Node)) (decl : Code.ClassDecl) :
    Code.ClassDecl :=
  { decl with
    methods := decl.methods ++ methodsOf options children
    getters := decl.getters ++ gettersOf options children }

theorem withMembers_nil (options : Options) : withMembers options [] = id := by
  funext decl
  simp [withMembers, methodsOf, gettersOf, endpointsOf, groupsOf]

theorem withMembers_endpoint (options : Options) (key : String) (endpoint : Endpoint) :
    withMembers options [(key, .endpoint endpoint)] = fun decl =>
      { decl with methods := decl.methods ++ [methodOf options key endpoint] } := by
  funext decl
  simp [withMembers, methodsOf, gettersOf, endpointsOf, groupsOf]

theorem withMembers_group (options : Options) (key : String) (name url : Option String)
    (scope : ScopeId) (children : List (String × Node)) :
    withMembers options [(key, .group name url scope children)] = fun decl =>
      { decl with getters := decl.getters ++
        [{ name := key, target := groupClassName key name options.groupSuffix }] } := by
  funext decl
  simp [withMembers, methodsOf, gettersOf, endpointsOf, groupsOf]

theorem withMembers_cons (options : Options) (child : String × Node)
    (rest : List (String × Node)) :
    withMembers options (child :: rest) =
      withMembers options rest ∘ withMembers options [child] := by
  have hendpoints : endpointsOf (child :: rest) = endpointsOf [child] ++ endpointsOf rest := by
    rw [endpointsOf, ← List.singleton_append, List.filterMap_append, endpointsOf, endpointsOf]
  have hgroups : groupsOf (child :: rest) = groupsOf [child] ++ groupsOf rest := by
    rw [groupsOf, ← List.singleton_append, List.filterMap_append, groupsOf, groupsOf]
  funext decl
  simp [withMembers, methodsOf, gettersOf, hendpoints, hgroups]

/-- A class that is entered for a group and filled with the members of its children is the class of
    the branch. -/
theorem withMembers_empty (options : Options) (path : List String) (key : String)
    (name : Option String) (children : List (String × Node)) :
    withMembers options children ⟨groupClassName key name options.groupSuffix, false, [], []⟩ =
      classOf options ⟨path ++ [key], name, children⟩ := by
  simp [withMembers, classOf, Branch.className_below]

/-! ## Modifying one class of several -/

theorem modify_append_of_lt {α : Type} (f : α → α) {i : Nat} {l : List α} (h : i < l.length)
    (m : List α) : (l ++ m).modify i f = l.modify i f ++ m := by
  induction l generalizing i with
  | nil => simp at h
  | cons a l ih =>
    cases i with
    | zero => simp
    | succ i => simpa using ih (by simpa using h)

theorem modify_length_append {α : Type} (f : α → α) (l : List α) (a : α) (m : List α) :
    (l ++ a :: m).modify l.length f = l ++ f a :: m := by
  induction l with
  | nil => simp
  | cons b l ih => simpa using ih

/-! ## One visit -/

mutual

/-- A visit to a node adds its members to the class of its owner, and the classes of its branches at
    the end. -/
theorem visit_eq_ok (options : Options) (owner : Nat) (path : List String) (key : String) :
    ∀ (node : Node) (draft : Draft), node.isForeign = false →
    (∀ branch ∈ node.branches (path ++ [key]), ∀ child ∈ branch.children,
      child.2.isForeign = false) →
    owner < draft.classes.length →
    ∃ events, visit options owner key node draft = .ok
      ⟨draft.classes.modify owner (withMembers options [(key, node)]) ++
        (node.branches (path ++ [key])).map (classOf options), events⟩
  | .endpoint endpoint, draft, _, _, _ => by
    rw [visit, Node.branches, List.map_nil, List.append_nil, withMembers_endpoint]
    exact ⟨_, rfl⟩
  | .foreign _, _, hnode, _, _ => by simp [Node.isForeign] at hnode
  | .group name url scope children, draft, _, hknown, howner => by
    rw [Node.branches] at hknown ⊢
    let className := groupClassName key name options.groupSuffix
    let entered := ((draft.tell (.addedGroup className (draft.className owner) key)).openClass
      className false).appendGetter owner { name := key, target := className }
    -- entering the class puts it behind the others, and the getter goes to one of those
    have hentered : entered.classes =
        draft.classes.modify owner (withMembers options [(key, .group name url scope children)]) ++
          [⟨className, false, [], []⟩] := by
      rw [withMembers_group]
      exact modify_append_of_lt _ howner _
    have hlength : draft.classes.length < entered.classes.length := by
      simp [hentered]
    obtain ⟨events, hvisit⟩ := visitAll_eq_ok options draft.classes.length (path ++ [key]) children
      entered (hknown _ (List.mem_cons_self ..))
      (fun branch hb => hknown branch (List.mem_cons_of_mem _ hb)) hlength
    refine ⟨events, ?_⟩
    rw [visit]
    show visitAll options draft.classes.length children entered = _
    have hmodify := modify_length_append (withMembers options children)
      (draft.classes.modify owner (withMembers options [(key, .group name url scope children)]))
      ⟨className, false, [], []⟩ []
    rw [List.length_modify] at hmodify
    rw [hvisit, hentered, hmodify, withMembers_empty options path key name children]
    simp

/-- A visit to the children of a branch adds their members to its class, and the classes of the
    branches below at the end. -/
theorem visitAll_eq_ok (options : Options) (owner : Nat) (path : List String) :
    ∀ (children : List (String × Node)) (draft : Draft),
    (∀ child ∈ children, child.2.isForeign = false) →
    (∀ branch ∈ branchesBelow path children, ∀ child ∈ branch.children,
      child.2.isForeign = false) →
    owner < draft.classes.length →
    ∃ events, visitAll options owner children draft = .ok
      ⟨draft.classes.modify owner (withMembers options children) ++
        (branchesBelow path children).map (classOf options), events⟩
  | [], draft, _, _, _ => by
    refine ⟨draft.events, ?_⟩
    rw [visitAll, branchesBelow, withMembers_nil]
    simp
  | (key, node) :: rest, draft, hchildren, hknown, howner => by
    rw [branchesBelow] at hknown ⊢
    obtain ⟨events, hnode⟩ := visit_eq_ok options owner path key node draft
      (hchildren _ (List.mem_cons_self ..)) (fun b hb => hknown b (List.mem_append_left _ hb))
      howner
    -- the classes that the first child has put at the end leave the number of the owner as it is
    let visited : Draft :=
      ⟨draft.classes.modify owner (withMembers options [(key, node)]) ++
        (node.branches (path ++ [key])).map (classOf options), events⟩
    have howner' : owner < visited.classes.length := by
      simp only [visited, List.length_append, List.length_modify]
      omega
    obtain ⟨events', hrest⟩ := visitAll_eq_ok options owner path rest visited
      (fun child hc => hchildren child (List.mem_cons_of_mem _ hc))
      (fun b hb => hknown b (List.mem_append_right _ hb)) howner'
    refine ⟨events', ?_⟩
    rw [visitAll, hnode]
    show visitAll options owner rest visited = _
    rw [hrest, modify_append_of_lt _ (by simpa using howner), List.modify_modify_eq,
      ← withMembers_cons, List.append_assoc, ← List.map_append]

end

/-! ## The whole walk -/

/-- **The walk gives one class per branch**, in the order of the branches. -/
theorem draft_eq_ok (options : Options) {schema : Schema} (hknown : schema.AllKnown) :
    ∃ events, draft options schema = .ok ⟨schema.branches.map (classOf options), events⟩ := by
  let root : Draft := (Draft.mk [] []).openClass (options.rootClassName schema) true
  obtain ⟨events, hvisit⟩ := visitAll_eq_ok options 0 [] schema.children root
    (hknown _ (List.mem_cons_self ..)) (fun b hb => hknown b (List.mem_cons_of_mem _ hb))
    (by simp [root, Draft.openClass])
  refine ⟨events, ?_⟩
  rw [draft]
  show visitAll options 0 schema.children root = _
  rw [hvisit]
  simp [root, Draft.openClass, Schema.branches, Schema.root, withMembers, classOf,
    Branch.className, Options.rootClassName]

theorem ofSchema_eq_ok (options : Options) {schema : Schema} (hknown : schema.AllKnown) :
    ofSchema options schema = .ok ⟨options.imports, schema.branches.map (classOf options)⟩ := by
  obtain ⟨events, hdraft⟩ := draft_eq_ok options hknown
  rw [ofSchema, hdraft]
  rfl

theorem source_eq_ok (options : Options) {schema : Schema} (hknown : schema.AllKnown) :
    ∃ events, source options schema = .ok
      (Code.Module.render ⟨options.imports, schema.branches.map (classOf options)⟩, events) := by
  obtain ⟨events, hdraft⟩ := draft_eq_ok options hknown
  rw [source, hdraft]
  exact ⟨_, rfl⟩

end Client

end ApiScribe
