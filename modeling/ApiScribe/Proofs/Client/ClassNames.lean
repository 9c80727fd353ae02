import ApiScribe.Proofs.Client.Walk
import ApiScribe.Proofs.Document.Readable
import Mathlib.Data.List.Nodup

set_option autoImplicit false

/-! # When class names clash

All classes of a module share one space of names, but a key is unique only within its own container,
and the class name of a group without a name is made from its key alone. So two groups far apart may
get one class name, and a getter that gives an instance of it may give one of the wrong group.

A name that belongs to two classes is always the target of some getter, as all classes but the first
are those of groups. So the getters are unambiguous exactly if the class names are pairwise different
(`gettersResolve_iff`), and if no group has a name of its own, this can be seen from the keys
(`nodup_classNames_iff_keysApart`). -/

namespace ApiScribe

/-! ## Keys of groups -/

/-- The keys under which the groups of a schema stand, at any depth. -/
def Schema.groupKeys (schema : Schema) : List String :=
  (branchesBelow [] schema.children).filterMap (·.path.getLast?)

/-- No group has a name of its own. -/
def Schema.GroupsUnnamed (schema : Schema) : Prop :=
  ∀ branch ∈ branchesBelow [] schema.children, branch.name = none

instance (schema : Schema) : Decidable schema.GroupsUnnamed :=
  inferInstanceAs (Decidable (∀ branch ∈ branchesBelow [] schema.children, branch.name = none))

namespace Client

/-- The keys of any two groups still differ with their first character in upper case, and the root
    has no name of its own that a group gets under the default options. -/
def KeysApart (schema : Schema) : Prop :=
  (schema.groupKeys.map Text.upperFirst).Nodup ∧
    ∀ key ∈ schema.groupKeys, schema.name ≠ some (groupClassName key none (Options.groupSuffix {}))

instance (schema : Schema) : Decidable (KeysApart schema) :=
  inferInstanceAs (Decidable (_ ∧ ∀ key ∈ schema.groupKeys, _))

/-- Every getter names one class only, that of its own group. -/
def GettersResolve (options : Options) (schema : Schema) (unit : Code.Module) : Prop :=
  ∀ (i : Nat) branch decl, schema.branches[i]? = some branch → unit.classes[i]? = some decl →
    ∀ getter ∈ decl.getters, ∃ (j : Nat) (inner : Branch),
      schema.branches[j]? = some inner ∧ branch.HasGroup getter.name inner ∧
      unit.classes[j]? = some (classOf options inner) ∧
      ∀ k : Nat, (unit.classes.map (·.name))[k]? = some getter.target ↔ k = j

/-! ## Names of classes and targets of getters -/

/-- The class names of a schema, in the order of the classes. -/
def classNames (options : Options) (schema : Schema) : List String :=
  schema.branches.map (Branch.className options)

theorem names_classes (options : Options) (schema : Schema) :
    (schema.branches.map (classOf options)).map (·.name) = classNames options schema := by
  rw [List.map_map]
  rfl

theorem getElem?_classNames (options : Options) {schema : Schema} {i : Nat} {branch : Branch}
    (h : schema.branches[i]? = some branch) :
    (classNames options schema)[i]? = some (branch.className options) := by
  rw [classNames, List.getElem?_map, h, Option.map_some]

/-- Every class but the first is the target of a getter. -/
theorem exists_getter_of_pos (options : Options) {schema : Schema} {j : Nat} (hpos : 0 < j)
    (hj : j < (classNames options schema).length) :
    ∃ (i : Nat) (container : Branch), schema.branches[i]? = some container ∧
      ∃ getter ∈ gettersOf options container.children,
        (classNames options schema)[j]? = some getter.target := by
  obtain ⟨inner, hinner⟩ : ∃ inner, schema.branches[j]? = some inner :=
    ⟨_, List.getElem?_eq_getElem (by simpa [classNames] using hj)⟩
  have hbelow : inner ∈ branchesBelow [] schema.children := by
    obtain ⟨j, rfl⟩ := Nat.exists_eq_succ_of_ne_zero (Nat.ne_of_gt hpos)
    rw [Schema.branches, List.getElem?_cons_succ] at hinner
    exact List.mem_of_getElem? hinner
  obtain ⟨container, hcontainer, key, hgroup⟩ := Schema.exists_hasGroup hbelow
  obtain ⟨i, hi⟩ := List.mem_iff_getElem?.1 hcontainer
  obtain ⟨getter, hgetter, -, htarget⟩ := exists_getter_of_hasGroup options hgroup
  refine ⟨i, container, hi, getter, hgetter, ?_⟩
  rw [getElem?_classNames options hinner, htarget]

/-- **Getters are unambiguous** exactly if no two classes share a name, whether groups have names
    of their own or not. -/
theorem gettersResolve_iff (options : Options) (schema : Schema) :
    GettersResolve options schema ⟨options.imports, schema.branches.map (classOf options)⟩ ↔
      (classNames options schema).Nodup := by
  unfold GettersResolve
  rw [names_classes]
  constructor
  · intro h
    rw [List.nodup_iff_getElem?_ne_getElem?]
    intro i j hij hj heq
    -- the later of two classes of one name has a getter, which names both
    obtain ⟨m, container, hm, getter, hgetter, hname⟩ :=
      exists_getter_of_pos options (Nat.zero_lt_of_lt hij) hj
    obtain ⟨n, -, -, -, -, hunique⟩ := h m container (classOf options container) hm
      (by rw [List.getElem?_map, hm, Option.map_some]) getter hgetter
    have hj : j = n := (hunique j).1 hname
    have hi : i = n := (hunique i).1 (heq.trans hname)
    omega
  · intro hnodup i branch decl hbranch hdecl getter hgetter
    obtain rfl : classOf options branch = decl := by
      simpa [hbranch] using hdecl
    obtain ⟨inner, hgroup, htarget⟩ := exists_hasGroup_of_mem_gettersOf hgetter
    have hinner := Schema.mem_branches_of_hasGroup (List.mem_of_getElem? hbranch) hgroup
    obtain ⟨j, hj⟩ := List.mem_iff_getElem?.1 hinner
    have hname := getElem?_classNames options hj
    have hlt := (List.getElem?_eq_some_iff.1 hname).1
    refine ⟨j, inner, hj, hgroup, by rw [List.getElem?_map, hj, Option.map_some], fun k => ?_⟩
    rw [← htarget, ← hname, eq_comm, List.getElem?_inj hlt hnodup, eq_comm]

/-! ## Names made from keys -/

theorem map_className_of_unnamed (options : Options) {branches : List Branch}
    (hpath : ∀ branch ∈ branches, branch.path ≠ [])
    (hname : ∀ branch ∈ branches, branch.name = none) :
    branches.map (Branch.className options) =
      (branches.filterMap (·.path.getLast?)).map (groupClassName · none options.groupSuffix) := by
  induction branches with
  | nil => rfl
  | cons branch rest ih =>
    have ih := ih (fun b hb => hpath b (List.mem_cons_of_mem _ hb))
      (fun b hb => hname b (List.mem_cons_of_mem _ hb))
    have hlast := List.getLast?_eq_some_getLast (hpath branch (List.mem_cons_self ..))
    rw [List.map_cons, ih, List.filterMap_cons, hlast, List.map_cons, Branch.className, hlast,
      hname branch (List.mem_cons_self ..)]

theorem classNames_of_unnamed (options : Options) {schema : Schema} (h : schema.GroupsUnnamed) :
    classNames options schema = options.rootClassName schema ::
      schema.groupKeys.map (groupClassName · none options.groupSuffix) := by
  have hpath : ∀ branch ∈ branchesBelow [] schema.children, branch.path ≠ [] := by
    intro branch hbranch
    obtain ⟨container, -, key, hgroup⟩ := Schema.exists_hasGroup hbranch
    simp [hgroup.1]
  rw [classNames, Schema.branches, List.map_cons, map_className_of_unnamed options hpath h]
  rfl

theorem groupClassName_inj {key key' suffix : String} :
    groupClassName key none suffix = groupClassName key' none suffix ↔
      Text.upperFirst key = Text.upperFirst key' :=
  String.append_left_inj suffix

/-- The class names of a schema without named groups are pairwise different exactly if the keys of
    its groups are with their first character in upper case, and none of them makes the name of the
    root. -/
theorem nodup_classNames_iff (options : Options) {schema : Schema} (h : schema.GroupsUnnamed) :
    (classNames options schema).Nodup ↔ (schema.groupKeys.map Text.upperFirst).Nodup ∧
      ∀ key ∈ schema.groupKeys,
        groupClassName key none options.groupSuffix ≠ options.rootClassName schema := by
  have hkeys : (schema.groupKeys.map (groupClassName · none options.groupSuffix)).Nodup ↔
      (schema.groupKeys.map Text.upperFirst).Nodup := by
    simp only [List.Nodup, List.pairwise_map, ne_eq, groupClassName_inj]
  rw [classNames_of_unnamed options h, List.nodup_cons, hkeys, and_comm]
  simp only [List.mem_map, not_exists, not_and, ne_eq]

/-- The default name of the root does not end like the names of groups. -/
theorem groupClassName_ne_rootName (key : String) :
    groupClassName key none (Options.groupSuffix {}) ≠ Options.rootName {} := by
  intro h
  have hsuffix : "APISet".toList <:+ "XSClient".toList :=
    ⟨_, (String.toList_append ..).symm.trans (congrArg String.toList h)⟩
  exact absurd hsuffix (by decide)

theorem keysApart_iff {schema : Schema} (h : schema.GroupsUnnamed) :
    KeysApart schema ↔ (classNames {} schema).Nodup := by
  have hroot : ∀ key, groupClassName key none (Options.groupSuffix {}) =
      Options.rootClassName {} schema ↔
        schema.name = some (groupClassName key none (Options.groupSuffix {})) := by
    intro key
    unfold Options.rootClassName
    cases schema.name with
    | none => simpa using groupClassName_ne_rootName key
    | some name => simp [eq_comm]
  rw [nodup_classNames_iff {} h, KeysApart]
  simp only [ne_eq, hroot]

/-! ## Documents -/

/-- **Class names from keys.** If no group of an accepted document has a name of its own, its class
    names are pairwise different exactly if the keys are apart, and so are its getters
    unambiguous. -/
theorem nodup_classNames_iff_keysApart {scopes scopes' : Scopes} {document : Json} {schema : Schema}
    (hread : Document.read scopes document = .ok (schema, scopes'))
    (hunnamed : schema.GroupsUnnamed) :
    ∃ unit, ofSchema {} schema = .ok unit ∧
      ((unit.classes.map (·.name)).Nodup ↔ KeysApart schema) ∧
      (GettersResolve {} schema unit ↔ KeysApart schema) := by
  refine ⟨_, ofSchema_eq_ok {} (Document.allKnown_of_read hread), ?_, ?_⟩
  · rw [names_classes, keysApart_iff hunnamed]
  · rw [gettersResolve_iff, keysApart_iff hunnamed]

/-- A document with one group in each of two others. -/
def versionsDocument (first second : LooseText) : Json :=
  .object [("apis", .object [
    ("v1", .object [("apis", .object [(first, .object [("apis", .object [])])])]),
    ("v2", .object [("apis", .object [(second, .object [("apis", .object [])])])])])]

/-- Its schema. -/
def versionsSchema (first second : LooseText) : Schema where
  name := none
  url := none
  scope := 0
  children := [
    ("v1", .group none none 1 [(first.marked, .group none none 2 [])]),
    ("v2", .group none none 3 [(second.marked, .group none none 4 [])])]

theorem read_versionsDocument (first second : LooseText) :
    ∃ scopes, Document.read {} (versionsDocument first second) =
      .ok (versionsSchema first second, scopes) :=
  ⟨_, rfl⟩

theorem nodup_classNames_versions :
    ∃ scopes unit, Document.read {} (versionsDocument "users" "orders") =
        .ok (versionsSchema "users" "orders", scopes) ∧
      (versionsSchema "users" "orders").GroupsUnnamed ∧
      ofSchema {} (versionsSchema "users" "orders") = .ok unit ∧
      (unit.classes.map (·.name)).Nodup ∧
      GettersResolve {} (versionsSchema "users" "orders") unit := by
  obtain ⟨scopes, hread⟩ := read_versionsDocument "users" "orders"
  have hunnamed : (versionsSchema "users" "orders").GroupsUnnamed := by decide
  have hapart : KeysApart (versionsSchema "users" "orders") := by decide
  obtain ⟨unit, hunit, hnames, hgetters⟩ := nodup_classNames_iff_keysApart hread hunnamed
  exact ⟨scopes, unit, hread, hunnamed, hunit, hnames.2 hapart, hgetters.2 hapart⟩

/-- Two groups under one key in different containers get one class name. -/
theorem not_nodup_classNames_twins :
    ∃ scopes unit, Document.read {} (versionsDocument "users" "users") =
        .ok (versionsSchema "users" "users", scopes) ∧
      (versionsSchema "users" "users").GroupsUnnamed ∧
      ofSchema {} (versionsSchema "users" "users") = .ok unit ∧
      ¬ (unit.classes.map (·.name)).Nodup := by
  obtain ⟨scopes, hread⟩ := read_versionsDocument "users" "users"
  refine ⟨scopes, _, hread, by decide, ofSchema_eq_ok {} (Document.allKnown_of_read hread), ?_⟩
  rw [names_classes]
  decide

end Client

end ApiScribe
