import ApiScribe.Proofs.Client.Walk

set_option autoImplicit false

/-! # The module of a schema, class by class

What the module of a schema consists of, said without the walk that builds it: one class per branch,
each with one method per endpoint and one getter per group among the children of its branch
(`IsTranslation`). Every schema without foreign nodes has such a module, and it is the one that the
walk builds. -/

namespace ApiScribe.Client

/-! ## Methods -/

/-- A method sends what the endpoint under a key describes. -/
structure IsMethodOf (options : Options) (key : String) (endpoint : Endpoint)
    (method : Code.Method) : Prop where
  name : method.name = key
  url : method.url = endpoint.url.getD options.missingUrl
  verb : method.verb = Text.lower endpoint.request.verb
  params : method.params.map (fun argument => (argument.name, argument.type)) =
    match endpoint.request with
    | .get fields => fields.getD []
    | _ => []
  data : method.data.map (fun argument => (argument.name, argument.type)) =
    match endpoint.request with
    | .post fields => fields.getD []
    | _ => []
  oneList : method.params = [] ∨ method.data = []
  distinctArguments : (method.arguments.map (·.name)).Nodup
  isPublic : method.isPublic = true

theorem map_argumentsOf (fields : Option Fields) :
    (argumentsOf fields).map (fun argument => (argument.name, argument.type)) = fields.getD [] := by
  simp [argumentsOf, Function.comp_def]

theorem names_argumentsOf (fields : Option Fields) :
    (argumentsOf fields).map (·.name) = Table.keys (fields.getD []) := by
  simp [argumentsOf, Table.keys, Function.comp_def]

/-- The fields that become arguments are fields of the request. -/
theorem names_arguments_sublist (options : Options) (key : String) (endpoint : Endpoint) :
    ((methodOf options key endpoint).arguments.map (·.name)).Sublist
      (Table.keys (endpoint.request.fields?.getD [])) := by
  cases hr : endpoint.request <;>
    simp [methodOf, Code.Method.arguments, queryArguments, bodyArguments, hr, names_argumentsOf,
      Request.fields?]

theorem isMethodOf_methodOf (options : Options) (key : String) {endpoint : Endpoint}
    (h : Table.Distinct (endpoint.request.fields?.getD [])) :
    IsMethodOf options key endpoint (methodOf options key endpoint) where
  name := rfl
  url := rfl
  verb := rfl
  params := by cases hr : endpoint.request <;> simp [methodOf, queryArguments, hr, map_argumentsOf]
  data := by cases hr : endpoint.request <;> simp [methodOf, bodyArguments, hr, map_argumentsOf]
  oneList := by cases hr : endpoint.request <;> simp [methodOf, queryArguments, bodyArguments, hr]
  distinctArguments := h.sublist (names_arguments_sublist options key endpoint)
  isPublic := rfl

/-! ## Classes -/

/-- A class has the members that its branch accounts for: methods and getters stand in the order of
    the children, a getter gives an instance of the class of the group under its name, and no two
    members have one name. -/
structure IsClassOf (options : Options) (schema : Schema) (unit : Code.Module) (branch : Branch)
    (decl : Code.ClassDecl) : Prop where
  name : decl.name = branch.className options
  methodCount : decl.methods.length = (endpointsOf branch.children).length
  method : ∀ (j : Nat) key endpoint method,
    (endpointsOf branch.children)[j]? = some (key, endpoint) →
    decl.methods[j]? = some method → IsMethodOf options key endpoint method
  getters : decl.getters.map (·.name) = (groupsOf branch.children).map Prod.fst
  target : ∀ getter ∈ decl.getters, ∃ (i : Nat) (inner : Branch) (target : Code.ClassDecl),
    schema.branches[i]? = some inner ∧ unit.classes[i]? = some target ∧
    inner.path = branch.path ++ [getter.name] ∧ getter.target = target.name
  publicGetters : ∀ getter ∈ decl.getters, getter.isPublic = true
  distinctMembers : (decl.methods.map (·.name) ++ decl.getters.map (·.name)).Nodup

theorem names_methodsOf (options : Options) (children : List (String × Node)) :
    (methodsOf options children).map (·.name) = (endpointsOf children).map Prod.fst := by
  simp [methodsOf, methodOf]

theorem names_gettersOf (options : Options) (children : List (String × Node)) :
    (gettersOf options children).map (·.name) = (groupsOf children).map Prod.fst := by
  simp [gettersOf]

theorem isClassOf_classOf (options : Options) {schema : Schema} (hknown : schema.AllKnown)
    (hkeyed : schema.Keyed) {branch : Branch} (hbranch : branch ∈ schema.branches) :
    IsClassOf options schema ⟨options.imports, schema.branches.map (classOf options)⟩ branch
      (classOf options branch) where
  name := rfl
  methodCount := by simp [classOf, methodsOf]
  method := by
    intro j key endpoint method hendpoint hmethod
    have hmem := List.mem_of_getElem? hendpoint
    have heq : method = methodOf options key endpoint := by
      simpa [classOf, methodsOf, hendpoint] using hmethod.symm
    rw [heq]
    exact isMethodOf_methodOf options key ((hkeyed branch hbranch).2 _ hmem)
  getters := names_gettersOf options branch.children
  target := by
    intro getter hgetter
    obtain ⟨inner, hgroup, htarget⟩ := exists_hasGroup_of_mem_gettersOf hgetter
    have hinner := Schema.mem_branches_of_hasGroup hbranch hgroup
    obtain ⟨i, hi⟩ := List.mem_iff_getElem?.1 hinner
    exact ⟨i, inner, classOf options inner, hi, by simp [hi], hgroup.1, htarget.symm⟩
  publicGetters := by
    intro getter hgetter
    obtain ⟨child, -, rfl⟩ := List.mem_map.1 hgetter
    rfl
  distinctMembers := by
    show ((methodsOf options branch.children).map (·.name) ++
      (gettersOf options branch.children).map (·.name)).Nodup
    rw [names_methodsOf, names_gettersOf]
    exact (keys_perm (hknown branch hbranch)).nodup_iff.2 (hkeyed branch hbranch).1

/-! ## The module -/

/-- A module is the translation of a schema: its classes are those of the branches, in the order of
    the branches, which are the containers that keys lead to, each once and in pre-order. -/
structure IsTranslation (options : Options) (schema : Schema) (unit : Code.Module) : Prop where
  imports : unit.imports = options.imports
  classes : unit.classes.length = schema.branches.length
  distinctPaths : (schema.branches.map Branch.path).Nodup
  preorder : schema.branches.Pairwise (Branch.Precedes schema.root)
  containers : ∀ branch, branch ∈ schema.branches ↔
    schema.root.follow branch.path = some branch
  exported : ∀ (i : Nat) decl, unit.classes[i]? = some decl → (decl.exported = true ↔ i = 0)
  isClassOf : ∀ (i : Nat) branch decl, schema.branches[i]? = some branch →
    unit.classes[i]? = some decl → IsClassOf options schema unit branch decl
  classCount : unit.classes.length = countBelow Node.isGroup schema.children + 1
  methodCount : (unit.classes.flatMap (·.methods)).length =
    countBelow Node.isEndpoint schema.children
  getterCount : (unit.classes.flatMap (·.getters)).length =
    countBelow Node.isGroup schema.children

theorem exported_classOf_iff (options : Options) {schema : Schema} (hkeyed : schema.Keyed) {i : Nat}
    {branch : Branch} (h : schema.branches[i]? = some branch) :
    (classOf options branch).exported = true ↔ i = 0 := by
  cases i with
  | zero =>
    obtain rfl : schema.root = branch := by simpa [Schema.branches] using h
    simp [classOf, Schema.root]
  | succ i =>
    have hmem : branch ∈ branchesBelow [] schema.children := by
      simp only [Schema.branches, List.getElem?_cons_succ] at h
      exact List.mem_of_getElem? h
    obtain ⟨key, -, keys, hpath⟩ := exists_path_of_mem_branchesBelow
      (fun b hb => (hkeyed b (List.mem_cons_of_mem _ hb)).1) hmem
    simp [classOf, hpath]

/-- If a kind of member stands for a kind of node in every class, it does in all classes
    together. -/
theorem length_members {α : Type} {members : Branch → List α} {p : Node → Bool}
    (h : ∀ branch, (members branch).length = branch.children.countP (p ·.2)) (schema : Schema) :
    (schema.branches.flatMap members).length = countBelow p schema.children := by
  have hall : ∀ branches : List Branch,
      (branches.flatMap members).length = (branches.flatMap Branch.children).countP (p ·.2) := by
    intro branches
    induction branches with
    | nil => rfl
    | cons branch rest ih =>
      rw [List.flatMap_cons, List.flatMap_cons, List.length_append, List.countP_append, h, ih]
  rw [countBelow_eq p [], hall, Schema.branches, List.flatMap_cons, List.countP_append]
  rfl

/-- **The module of a schema is its translation**, for all options. -/
theorem ofSchema_isTranslation (options : Options) {schema : Schema} (hknown : schema.AllKnown)
    (hkeyed : schema.Keyed) :
    ∃ unit, ofSchema options schema = .ok unit ∧ IsTranslation options schema unit := by
  refine ⟨_, ofSchema_eq_ok options hknown, ?_⟩
  have hclass : ∀ (i : Nat) branch decl, schema.branches[i]? = some branch →
      (schema.branches.map (classOf options))[i]? = some decl → decl = classOf options branch := by
    intro i branch decl hbranch hdecl
    simpa [hbranch] using hdecl.symm
  constructor
  case imports => rfl
  case classes => simp
  case distinctPaths => exact Schema.nodup_paths hkeyed
  case preorder => exact Schema.pairwise_precedes hkeyed
  case containers => exact fun branch => Schema.mem_branches_iff hkeyed
  case exported =>
    intro i decl hdecl
    rw [List.getElem?_map, Option.map_eq_some_iff] at hdecl
    obtain ⟨branch, hbranch, rfl⟩ := hdecl
    exact exported_classOf_iff options hkeyed hbranch
  case isClassOf =>
    intro i branch decl hbranch hdecl
    rw [hclass i branch decl hbranch hdecl]
    exact isClassOf_classOf options hknown hkeyed (List.mem_of_getElem? hbranch)
  case classCount =>
    simp [Schema.branches, length_branchesBelow]
  case methodCount =>
    rw [List.flatMap_map]
    exact length_members (fun branch => by simp [classOf, methodsOf, length_endpointsOf]) schema
  case getterCount =>
    rw [List.flatMap_map]
    exact length_members (fun branch => by simp [classOf, gettersOf, length_groupsOf]) schema

/-- A named root with an endpoint and a group without a name, which has an endpoint of its own. -/
def nestedSchema : Schema where
  name := some "Shop"
  url := none
  scope := 0
  children := [
    ("find", .endpoint ⟨some "/items", .get (some [("id", "string"), ("page", "number")]), 1⟩),
    ("users", .group none none 2 [("create", .endpoint ⟨none, .post none, 3⟩)])]

theorem nestedSchema_isTranslation :
    nestedSchema.AllKnown ∧ nestedSchema.Keyed ∧
      ∃ unit, ofSchema {} nestedSchema = .ok unit ∧ IsTranslation {} nestedSchema unit := by
  have hknown : nestedSchema.AllKnown := by decide
  have hkeyed : nestedSchema.Keyed := by decide
  exact ⟨hknown, hkeyed, ofSchema_isTranslation {} hknown hkeyed⟩

end ApiScribe.Client
