import ApiScribe.Schema.Basic

set_option autoImplicit false

/-! # The branches of a schema

The branches of a schema are its inner nodes: the root and all groups, every one before those inside
it. Each is listed with the keys that lead to it and with its children. The list says all about the
shape of the tree without recursion: a property of every container is a property of every member of
`Schema.branches`. If no container holds a key twice, the branches are what can be reached by
following keys (`Schema.mem_branches_iff`), no path is listed twice (`Schema.nodup_paths`), and the
order is the one in which a walk along the keys meets them (`Schema.pairwise_precedes`). -/

namespace ApiScribe

/-- The root or a group: the keys that lead to it, its own name, and its children. -/
structure Branch where
  path : List String
  name : Option String
  children : List (String × Node)

mutual

/-- The branches of a node to which `path` leads. -/
def Node.branches (path : List String) : Node → List Branch
  | .endpoint _ => []
  | .group name _ _ children => ⟨path, name, children⟩ :: branchesBelow path children
  | .foreign _ => []

/-- The branches of the children of the node to which `path` leads. -/
def branchesBelow (path : List String) : List (String × Node) → List Branch
  | [] => []
  | (key, node) :: rest => node.branches (path ++ [key]) ++ branchesBelow path rest

end

/-- The root of a schema as a branch. -/
def Schema.root (schema : Schema) : Branch := ⟨[], schema.name, schema.children⟩

/-- The branches of a schema: the root, then all groups. -/
def Schema.branches (schema : Schema) : List Branch :=
  schema.root :: branchesBelow [] schema.children

/-- The root is a group that stands under no key. -/
theorem Schema.branches_eq (schema : Schema) : schema.branches =
    (Node.group schema.name schema.url schema.scope schema.children).branches [] := by
  rw [Node.branches, branches, root]

theorem mem_branchesBelow {path : List String} {children : List (String × Node)} {branch : Branch} :
    branch ∈ branchesBelow path children ↔
      ∃ child ∈ children, branch ∈ child.2.branches (path ++ [child.1]) := by
  induction children with
  | nil => simp [branchesBelow]
  | cons child rest ih => simp [branchesBelow, ih]

/-! ## Children by kind -/

/-- Whether a node is an endpoint. -/
def Node.isEndpoint : Node → Bool
  | .endpoint _ => true
  | _ => false

/-- Whether a node is a group. -/
def Node.isGroup : Node → Bool
  | .group .. => true
  | _ => false

/-- Whether a node is foreign. -/
def Node.isForeign : Node → Bool
  | .foreign _ => true
  | _ => false

/-- The endpoints among children, with their keys. -/
def endpointsOf (children : List (String × Node)) : List (String × Endpoint) :=
  children.filterMap fun
    | (key, .endpoint endpoint) => some (key, endpoint)
    | _ => none

/-- The groups among children: their keys and names. -/
def groupsOf (children : List (String × Node)) : List (String × Option String) :=
  children.filterMap fun
    | (key, .group name _ _ _) => some (key, name)
    | _ => none

theorem mem_of_mem_endpointsOf {children : List (String × Node)} {key : String}
    {endpoint : Endpoint} (h : (key, endpoint) ∈ endpointsOf children) :
    (key, .endpoint endpoint) ∈ children := by
  obtain ⟨⟨k, node⟩, hmem, heq⟩ := List.mem_filterMap.1 h
  cases node with
  | group name url scope inner => simp at heq
  | foreign kind => simp at heq
  | endpoint endpoint =>
    simp only [Option.some.injEq, Prod.mk.injEq] at heq
    obtain ⟨rfl, rfl⟩ := heq
    exact hmem

theorem mem_endpointsOf_of_mem {children : List (String × Node)} {key : String}
    {endpoint : Endpoint} (h : (key, .endpoint endpoint) ∈ children) :
    (key, endpoint) ∈ endpointsOf children :=
  List.mem_filterMap.2 ⟨_, h, rfl⟩

theorem mem_groupsOf {children : List (String × Node)} {key : String} {name : Option String} :
    (key, name) ∈ groupsOf children ↔
      ∃ url scope inner, (key, .group name url scope inner) ∈ children := by
  constructor
  · intro h
    obtain ⟨⟨k, node⟩, hmem, heq⟩ := List.mem_filterMap.1 h
    cases node with
    | endpoint endpoint => simp at heq
    | foreign kind => simp at heq
    | group name url scope inner =>
      simp only [Option.some.injEq, Prod.mk.injEq] at heq
      obtain ⟨rfl, rfl⟩ := heq
      exact ⟨url, scope, inner, hmem⟩
  · rintro ⟨url, scope, inner, hmem⟩
    exact List.mem_filterMap.2 ⟨_, hmem, rfl⟩

theorem length_endpointsOf (children : List (String × Node)) :
    (endpointsOf children).length = children.countP (·.2.isEndpoint) := by
  rw [endpointsOf, List.length_filterMap_eq_countP]
  refine List.countP_congr fun child _ => ?_
  obtain ⟨key, node⟩ := child
  cases node <;> simp [Node.isEndpoint]

theorem length_groupsOf (children : List (String × Node)) :
    (groupsOf children).length = children.countP (·.2.isGroup) := by
  rw [groupsOf, List.length_filterMap_eq_countP]
  refine List.countP_congr fun child _ => ?_
  obtain ⟨key, node⟩ := child
  cases node <;> simp [Node.isGroup]

/-- The keys of the endpoints and those of the groups are keys of the children, every one at most
    once. -/
theorem keys_perm {children : List (String × Node)}
    (h : ∀ child ∈ children, child.2.isForeign = false) :
    List.Perm ((endpointsOf children).map Prod.fst ++ (groupsOf children).map Prod.fst)
      (children.map Prod.fst) := by
  induction children with
  | nil => exact .nil
  | cons child rest ih =>
    have ih := ih fun x hx => h x (List.mem_cons_of_mem _ hx)
    have hchild := h child (List.mem_cons_self ..)
    simp only [endpointsOf, groupsOf] at ih
    obtain ⟨key, node⟩ := child
    cases node with
    | endpoint endpoint => simpa [endpointsOf, groupsOf] using ih.cons key
    | group name url scope inner =>
      simpa [endpointsOf, groupsOf] using List.perm_middle.trans (ih.cons key)
    | foreign kind => simp [Node.isForeign] at hchild

/-! ## Groups in containers -/

/-- A branch is that of the group under a key of a container. -/
def Branch.HasGroup (container : Branch) (key : String) (inner : Branch) : Prop :=
  inner.path = container.path ++ [key] ∧
    ∃ url scope, (key, .group inner.name url scope inner.children) ∈ container.children

mutual

/-- A group in a branch of a node is a branch of the node itself. -/
theorem Node.mem_branches_of_hasGroup {path : List String} {container inner : Branch}
    {key : String} (h : container.HasGroup key inner) : ∀ node : Node,
    container ∈ node.branches path → inner ∈ node.branches path
  | .endpoint _, hmem => by simp [Node.branches] at hmem
  | .foreign _, hmem => by simp [Node.branches] at hmem
  | .group name _ _ children, hmem => by
    rw [Node.branches] at hmem ⊢
    refine List.mem_cons_of_mem _ ?_
    rcases List.mem_cons.1 hmem with rfl | hbelow
    · obtain ⟨hpath, url, scope, hchild⟩ := h
      refine mem_branchesBelow.2 ⟨_, hchild, ?_⟩
      rw [Node.branches, ← hpath]
      exact List.mem_cons_self ..
    · exact mem_branchesBelow_of_hasGroup h children hbelow

theorem mem_branchesBelow_of_hasGroup {path : List String} {container inner : Branch}
    {key : String} (h : container.HasGroup key inner) : ∀ children : List (String × Node),
    container ∈ branchesBelow path children → inner ∈ branchesBelow path children
  | [], hmem => by simp [branchesBelow] at hmem
  | (key', node) :: rest, hmem => by
    rw [branchesBelow] at hmem ⊢
    rcases List.mem_append.1 hmem with hnode | hrest
    · exact List.mem_append_left _ (node.mem_branches_of_hasGroup h hnode)
    · exact List.mem_append_right _ (mem_branchesBelow_of_hasGroup h rest hrest)

end

/-- A group in a branch is a branch itself. -/
theorem Schema.mem_branches_of_hasGroup {schema : Schema} {container inner : Branch} {key : String}
    (hcontainer : container ∈ schema.branches) (h : container.HasGroup key inner) :
    inner ∈ schema.branches := by
  rw [branches_eq] at hcontainer ⊢
  exact Node.mem_branches_of_hasGroup h _ hcontainer

mutual

/-- A branch of a node is that of the node itself or of a group in another branch of the node. -/
theorem Node.exists_hasGroup {path : List String} {inner : Branch} : ∀ node : Node,
    inner ∈ node.branches path →
    (inner.path = path ∧ ∃ url scope, node = .group inner.name url scope inner.children) ∨
      ∃ container ∈ node.branches path, ∃ key, container.HasGroup key inner
  | .endpoint _, h => by simp [Node.branches] at h
  | .foreign _, h => by simp [Node.branches] at h
  | .group name url scope children, h => by
    rw [Node.branches] at h ⊢
    rcases List.mem_cons.1 h with rfl | hbelow
    · exact .inl ⟨rfl, url, scope, rfl⟩
    · exact .inr (exists_hasGroup_below name children hbelow)

/-- A branch below a container is that of a group in it or in another branch below. -/
theorem exists_hasGroup_below {path : List String} {inner : Branch} (name : Option String) :
    ∀ children : List (String × Node), inner ∈ branchesBelow path children →
    ∃ container ∈ ⟨path, name, children⟩ :: branchesBelow path children,
      ∃ key, container.HasGroup key inner
  | [], h => by simp [branchesBelow] at h
  | (key, node) :: rest, h => by
    rw [branchesBelow] at h ⊢
    rcases List.mem_append.1 h with hnode | hrest
    · rcases node.exists_hasGroup hnode with ⟨hpath, url, scope, rfl⟩ | ⟨container, hmem, hgroup⟩
      · exact ⟨_, List.mem_cons_self .., key, hpath, url, scope, List.mem_cons_self ..⟩
      · exact ⟨container, List.mem_cons_of_mem _ (List.mem_append_left _ hmem), hgroup⟩
    · obtain ⟨container, hmem, key', hgroup⟩ := exists_hasGroup_below name rest hrest
      rcases List.mem_cons.1 hmem with rfl | hbelow
      · obtain ⟨hpath, url, scope, hchild⟩ := hgroup
        exact ⟨_, List.mem_cons_self .., key', hpath, url, scope, List.mem_cons_of_mem _ hchild⟩
      · exact ⟨container, List.mem_cons_of_mem _ (List.mem_append_right _ hbelow), key', hgroup⟩

end

/-- All branches but the root are those of groups in branches. -/
theorem Schema.exists_hasGroup {schema : Schema} {inner : Branch}
    (h : inner ∈ branchesBelow [] schema.children) :
    ∃ container ∈ schema.branches, ∃ key, container.HasGroup key inner :=
  exists_hasGroup_below schema.name schema.children h

/-! ## Well-kept schemas -/

/-- No container holds a foreign node. -/
def Schema.AllKnown (schema : Schema) : Prop :=
  ∀ branch ∈ schema.branches, ∀ child ∈ branch.children, child.2.isForeign = false

/-- No container holds a key twice, and no endpoint a field: both are tables made by insertions
    (`Table.distinct_insert`). -/
def Schema.Keyed (schema : Schema) : Prop :=
  ∀ branch ∈ schema.branches, Table.Distinct branch.children ∧
    ∀ child ∈ endpointsOf branch.children, Table.Distinct (child.2.request.fields?.getD [])

instance (schema : Schema) : Decidable schema.AllKnown :=
  inferInstanceAs (Decidable (∀ branch ∈ schema.branches, ∀ child ∈ branch.children,
    child.2.isForeign = false))

instance (schema : Schema) : Decidable schema.Keyed :=
  inferInstanceAs (Decidable (∀ branch ∈ schema.branches, (Table.keys branch.children).Nodup ∧
    ∀ child ∈ endpointsOf branch.children, (Table.keys (child.2.request.fields?.getD [])).Nodup))

/-! ## Following keys -/

/-- The branch to which keys lead from a branch, if every one of them is the key of a group. -/
def Branch.follow (branch : Branch) : List String → Option Branch
  | [] => some branch
  | key :: keys =>
    match Table.get? branch.children key with
    | some (.group name _ _ children) => follow ⟨branch.path ++ [key], name, children⟩ keys
    | _ => none

theorem Branch.follow_cons_eq_some {branch target : Branch} {key : String} {keys : List String} :
    branch.follow (key :: keys) = some target ↔
      ∃ name url scope inner, Table.get? branch.children key = some (.group name url scope inner) ∧
        follow ⟨branch.path ++ [key], name, inner⟩ keys = some target := by
  rw [follow]
  split
  · next name url scope inner hget =>
    constructor
    · intro h
      exact ⟨name, url, scope, inner, hget, h⟩
    · rintro ⟨name', url', scope', inner', hget', h⟩
      obtain ⟨rfl, -, -, rfl⟩ := Node.group.inj (Option.some.inj (hget.symm.trans hget'))
      exact h
  · next hget =>
    constructor
    · intro h
      cases h
    · rintro ⟨name, url, scope, inner, hget', -⟩
      exact absurd hget' (hget name url scope inner)

theorem Branch.path_of_follow {branch target : Branch} {keys : List String}
    (h : branch.follow keys = some target) : target.path = branch.path ++ keys := by
  induction keys generalizing branch with
  | nil =>
    obtain rfl := Option.some.inj h
    simp
  | cons key keys ih =>
    obtain ⟨name, url, scope, inner, -, h⟩ := follow_cons_eq_some.1 h
    simpa using ih h

theorem Branch.follow_append {branch middle : Branch} {keys : List String}
    (h : branch.follow keys = some middle) (more : List String) :
    branch.follow (keys ++ more) = middle.follow more := by
  induction keys generalizing branch with
  | nil =>
    obtain rfl := Option.some.inj h
    rfl
  | cons key keys ih =>
    obtain ⟨name, url, scope, inner, hget, h⟩ := follow_cons_eq_some.1 h
    rw [List.cons_append, follow, hget]
    exact ih h

/-- What keys lead to from a branch is the branch itself or lies below it. -/
theorem Branch.mem_branches_of_follow {branch : Branch} {keys : List String} {target : Branch}
    (h : branch.follow keys = some target) :
    target = branch ∨ target ∈ branchesBelow branch.path branch.children := by
  induction keys generalizing branch with
  | nil => exact .inl (Option.some.inj h).symm
  | cons key keys ih =>
    obtain ⟨name, url, scope, inner, hget, h⟩ := follow_cons_eq_some.1 h
    have hmem := Table.mem_of_get? hget
    refine .inr (mem_branchesBelow.2 ⟨_, hmem, ?_⟩)
    rw [Node.branches]
    exact List.mem_cons.2 (ih h)

mutual

/-- Every branch of a node is reached from it, if the containers passed hold no key twice. -/
theorem Node.exists_follow {path : List String} {target : Branch} : ∀ node : Node,
    (∀ branch ∈ node.branches path, Table.Distinct branch.children) →
    target ∈ node.branches path →
    ∃ name url scope children keys, node = .group name url scope children ∧
      Branch.follow ⟨path, name, children⟩ keys = some target
  | .endpoint _, _, h => by simp [Node.branches] at h
  | .foreign _, _, h => by simp [Node.branches] at h
  | .group name url scope children, hdistinct, h => by
    rw [Node.branches] at h hdistinct
    rcases List.mem_cons.1 h with rfl | h
    · exact ⟨name, url, scope, children, [], rfl, rfl⟩
    · obtain ⟨key, name', url', scope', inner, keys, hmem, hfollow⟩ :=
        exists_follow_below children (fun b hb => hdistinct b (List.mem_cons_of_mem _ hb)) h
      have hget := Table.get?_of_mem (hdistinct _ (List.mem_cons_self ..)) hmem
      exact ⟨name, url, scope, children, key :: keys, rfl,
        Branch.follow_cons_eq_some.2 ⟨name', url', scope', inner, hget, hfollow⟩⟩

/-- Every branch below children is reached from one of them, which is a group. -/
theorem exists_follow_below {path : List String} {target : Branch} :
    ∀ children : List (String × Node),
    (∀ branch ∈ branchesBelow path children, Table.Distinct branch.children) →
    target ∈ branchesBelow path children →
    ∃ key name url scope inner keys, (key, .group name url scope inner) ∈ children ∧
      Branch.follow ⟨path ++ [key], name, inner⟩ keys = some target
  | [], _, h => by simp [branchesBelow] at h
  | (key, node) :: rest, hdistinct, h => by
    rw [branchesBelow] at h hdistinct
    rcases List.mem_append.1 h with h | h
    · obtain ⟨name, url, scope, inner, keys, rfl, hfollow⟩ :=
        node.exists_follow (fun b hb => hdistinct b (List.mem_append_left _ hb)) h
      exact ⟨key, name, url, scope, inner, keys, List.mem_cons_self .., hfollow⟩
    · obtain ⟨key', name, url, scope, inner, keys, hmem, hfollow⟩ :=
        exists_follow_below rest (fun b hb => hdistinct b (List.mem_append_right _ hb)) h
      exact ⟨key', name, url, scope, inner, keys, List.mem_cons_of_mem _ hmem, hfollow⟩

end

/-- **The branches are what keys lead to**, and the path of each is the keys that lead to it. -/
theorem Schema.mem_branches_iff {schema : Schema} (h : schema.Keyed) {branch : Branch} :
    branch ∈ schema.branches ↔ schema.root.follow branch.path = some branch := by
  constructor
  · intro hmem
    rcases List.mem_cons.1 hmem with rfl | hbelow
    · rfl
    · obtain ⟨key, name, url, scope, inner, keys, hchild, hfollow⟩ :=
        exists_follow_below schema.children
          (fun b hb => (h b (List.mem_cons_of_mem _ hb)).1) hbelow
      have hget := Table.get?_of_mem (h _ (List.mem_cons_self ..)).1 hchild
      have hroot : schema.root.follow (key :: keys) = some branch :=
        Branch.follow_cons_eq_some.2 ⟨name, url, scope, inner, hget, hfollow⟩
      rw [Branch.path_of_follow hroot]
      exact hroot
  · intro hfollow
    exact List.mem_cons.2 (Branch.mem_branches_of_follow hfollow)

/-! ## No path twice -/

/-- A branch below children lies behind the key of one of them. -/
theorem exists_path_of_mem_branchesBelow {path : List String} {children : List (String × Node)}
    (hdistinct : ∀ branch ∈ branchesBelow path children, Table.Distinct branch.children)
    {target : Branch} (h : target ∈ branchesBelow path children) :
    ∃ key ∈ children.map Prod.fst, ∃ keys, target.path = path ++ key :: keys := by
  obtain ⟨key, name, url, scope, inner, keys, hmem, hfollow⟩ :=
    exists_follow_below children hdistinct h
  refine ⟨key, List.mem_map_of_mem hmem, keys, ?_⟩
  simpa using Branch.path_of_follow hfollow

mutual

theorem Node.nodup_paths {path : List String} : ∀ node : Node,
    (∀ branch ∈ node.branches path, Table.Distinct branch.children) →
    ((node.branches path).map Branch.path).Nodup
  | .endpoint _, _ => by simp [Node.branches]
  | .foreign _, _ => by simp [Node.branches]
  | .group name _ _ children, hdistinct => by
    rw [Node.branches] at hdistinct ⊢
    have hbelow := fun b hb => hdistinct b (List.mem_cons_of_mem _ hb)
    rw [List.map_cons, List.nodup_cons]
    refine ⟨fun hmem => ?_, nodup_paths_below children (hdistinct _ (List.mem_cons_self ..)) hbelow⟩
    -- what lies below has a longer path
    obtain ⟨target, htarget, hpath⟩ := List.mem_map.1 hmem
    obtain ⟨key, -, keys, hlong⟩ := exists_path_of_mem_branchesBelow hbelow htarget
    have := congrArg List.length (hpath.symm.trans hlong)
    simp at this

theorem nodup_paths_below {path : List String} : ∀ children : List (String × Node),
    Table.Distinct children →
    (∀ branch ∈ branchesBelow path children, Table.Distinct branch.children) →
    ((branchesBelow path children).map Branch.path).Nodup
  | [], _, _ => by simp [branchesBelow]
  | (key, node) :: rest, hkeys, hdistinct => by
    rw [branchesBelow] at hdistinct ⊢
    have hrest := fun b hb => hdistinct b (List.mem_append_right _ hb)
    have hnode := fun b hb => hdistinct b (List.mem_append_left _ hb)
    obtain ⟨hnew, hkeys⟩ := List.nodup_cons.1 hkeys
    rw [List.map_append, List.nodup_append]
    refine ⟨node.nodup_paths hnode, nodup_paths_below rest hkeys hrest, ?_⟩
    -- the key of the first child is none of the others
    rintro p hp q hq rfl
    obtain ⟨target, htarget, rfl⟩ := List.mem_map.1 hp
    obtain ⟨other, hother, hpath⟩ := List.mem_map.1 hq
    obtain ⟨name, url, scope, inner, keys, rfl, hfollow⟩ := node.exists_follow hnode htarget
    obtain ⟨key', hkey', keys', hother⟩ := exists_path_of_mem_branchesBelow hrest hother
    rw [hother, Branch.path_of_follow hfollow, List.append_assoc,
      List.append_cancel_left_eq] at hpath
    obtain ⟨rfl, -⟩ := List.cons.inj hpath
    exact hnew hkey'

end

/-- No path is listed twice. -/
theorem Schema.nodup_paths {schema : Schema} (h : schema.Keyed) :
    (schema.branches.map Branch.path).Nodup := by
  rw [branches_eq]
  exact Node.nodup_paths _ fun branch hb => (h branch (schema.branches_eq ▸ hb)).1

/-! ## Pre-order -/

/-- One branch comes before another, as seen from a root: it contains the other, or the two lie in
    different children of one container, the first in the earlier child. -/
def Branch.Precedes (root first second : Branch) : Prop :=
  (∃ key keys, second.path = first.path ++ key :: keys) ∨
    ∃ stem container key keys key' keys', root.follow stem = some container ∧
      first.path = stem ++ key :: keys ∧ second.path = stem ++ key' :: keys' ∧
      [key, key'].Sublist (container.children.map Prod.fst)

mutual

theorem Node.pairwise_precedes {root : Branch} {path : List String} : ∀ node : Node,
    (∀ branch ∈ node.branches path, Table.Distinct branch.children) →
    (∀ name url scope children, node = .group name url scope children →
      root.follow path = some ⟨path, name, children⟩) →
    (node.branches path).Pairwise (Branch.Precedes root)
  | .endpoint _, _, _ => by simp [Node.branches]
  | .foreign _, _, _ => by simp [Node.branches]
  | .group name url scope children, hdistinct, hfollow => by
    rw [Node.branches] at hdistinct ⊢
    have hbelow := fun b hb => hdistinct b (List.mem_cons_of_mem _ hb)
    refine .cons (fun target htarget => .inl ?_) (pairwise_precedes_below [] children hbelow
      (hdistinct _ (List.mem_cons_self ..)) (hfollow name url scope children rfl) rfl rfl)
    obtain ⟨key, -, keys, hpath⟩ := exists_path_of_mem_branchesBelow hbelow htarget
    exact ⟨key, keys, hpath⟩

/-- The children are visited in their order, each with all below it. The induction is on those that
    are left of the children of a container. -/
theorem pairwise_precedes_below {root container : Branch} {path : List String}
    (visited : List (String × Node)) : ∀ children : List (String × Node),
    (∀ branch ∈ branchesBelow path children, Table.Distinct branch.children) →
    Table.Distinct container.children → root.follow path = some container →
    container.path = path → container.children = visited ++ children →
    (branchesBelow path children).Pairwise (Branch.Precedes root)
  | [], _, _, _, _, _ => by simp [branchesBelow]
  | (key, node) :: rest, hdistinct, hkeys, hfollow, hpath, hchildren => by
    rw [branchesBelow] at hdistinct ⊢
    have hnode := fun b hb => hdistinct b (List.mem_append_left _ hb)
    have hrest := fun b hb => hdistinct b (List.mem_append_right _ hb)
    have hmem : (key, node) ∈ container.children := by simp [hchildren]
    rw [List.pairwise_append]
    refine ⟨node.pairwise_precedes hnode ?_, pairwise_precedes_below (visited ++ [(key, node)]) rest
      hrest hkeys hfollow hpath (by simp [hchildren]), ?_⟩
    · rintro name url scope inner rfl
      rw [Branch.follow_append hfollow, ← hpath]
      exact Branch.follow_cons_eq_some.2
        ⟨name, url, scope, inner, Table.get?_of_mem hkeys hmem, rfl⟩
    · intro first hfirst second hsecond
      obtain ⟨name, url, scope, inner, keys, rfl, hreach⟩ := node.exists_follow hnode hfirst
      obtain ⟨key', hkey', keys', hsecond⟩ := exists_path_of_mem_branchesBelow hrest hsecond
      refine .inr ⟨path, container, key, keys, key', keys', hfollow, ?_, hsecond, ?_⟩
      · simpa using Branch.path_of_follow hreach
      · rw [hchildren, List.map_append, List.map_cons]
        exact .trans (.cons_cons key (List.singleton_sublist.2 hkey'))
          (List.sublist_append_right ..)

end

/-- The branches stand in pre-order. -/
theorem Schema.pairwise_precedes {schema : Schema} (h : schema.Keyed) :
    schema.branches.Pairwise (Branch.Precedes schema.root) := by
  rw [branches_eq]
  refine Node.pairwise_precedes _ (fun branch hb => (h branch (schema.branches_eq ▸ hb)).1) ?_
  intro name url scope children hgroup
  obtain ⟨rfl, -, -, rfl⟩ := Node.group.inj hgroup
  rfl

/-! ## Counting nodes -/

mutual

/-- The number of nodes with a property in a node, the node itself included. -/
def Node.count (p : Node → Bool) : Node → Nat
  | .endpoint endpoint => (p (.endpoint endpoint)).toNat
  | .group name url scope children =>
    (p (.group name url scope children)).toNat + countBelow p children
  | .foreign kind => (p (.foreign kind)).toNat

/-- The number of nodes with a property among children and inside them. -/
def countBelow (p : Node → Bool) : List (String × Node) → Nat
  | [] => 0
  | (_, node) :: rest => node.count p + countBelow p rest

end

mutual

theorem Node.count_eq (p : Node → Bool) (path : List String) : ∀ node : Node,
    node.count p =
      (p node).toNat + ((node.branches path).flatMap Branch.children).countP (p ·.2)
  | .endpoint _ => by simp [Node.count, Node.branches]
  | .foreign _ => by simp [Node.count, Node.branches]
  | .group name url scope children => by
    rw [Node.count, Node.branches, countBelow_eq p path children, List.flatMap_cons,
      List.countP_append]

/-- Every node below a container is a child of one branch. -/
theorem countBelow_eq (p : Node → Bool) (path : List String) :
    ∀ children : List (String × Node),
    countBelow p children = children.countP (p ·.2) +
      ((branchesBelow path children).flatMap Branch.children).countP (p ·.2)
  | [] => by simp [countBelow, branchesBelow]
  | (key, node) :: rest => by
    rw [countBelow, branchesBelow, node.count_eq p (path ++ [key]), countBelow_eq p path rest,
      List.flatMap_append, List.countP_append, List.countP_cons]
    cases p node <;> simp <;> omega

end

mutual

theorem Node.length_branches (path : List String) : ∀ node : Node,
    (node.branches path).length = node.count Node.isGroup
  | .endpoint _ => by simp [Node.count, Node.branches, Node.isGroup]
  | .foreign _ => by simp [Node.count, Node.branches, Node.isGroup]
  | .group name url scope children => by
    rw [Node.count, Node.branches, List.length_cons, length_branchesBelow path children]
    simp [Node.isGroup, Nat.add_comm]

theorem length_branchesBelow (path : List String) : ∀ children : List (String × Node),
    (branchesBelow path children).length = countBelow Node.isGroup children
  | [] => by simp [countBelow, branchesBelow]
  | (key, node) :: rest => by
    rw [countBelow, branchesBelow, List.length_append, node.length_branches,
      length_branchesBelow path rest]

end

end ApiScribe
