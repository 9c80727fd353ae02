import ApiScribe.Proofs.Client.Translation
import ApiScribe.Proofs.Document.Readable

set_option autoImplicit false

/-! # What the module of a schema depends on

The normal form of a schema keeps what the module shows and drops the rest: scopes, the addresses of
containers, the fields of a PUT request, whether fields are absent or empty, and how endpoints and
groups are interleaved. Two schemas have the same module exactly if they have the same normal form
(`ofSchema_eq_iff_normalForm_eq`).

The module is written from the normal form, class by class in pre-order, so equal normal forms give
equal modules. Conversely the nesting has to be recovered from a flat list of classes, in which one
name may occur many times. The number of getters of a class says how many groups follow it, and so
a pre-order list determines the form that it was written from and the classes behind it
(`NormalForm.classes_append_inj`). -/

namespace ApiScribe

namespace Client

/-! ## Normal forms -/

/-- What a module shows of an endpoint. -/
structure EndpointForm where
  key : String
  url : String
  verb : String
  params : Fields
  data : Fields
deriving DecidableEq, Repr

/-- What a module shows of a container: the name of its class, its endpoints, and its groups by
    key, each kind in the order of the children. -/
inductive NormalForm where
  | container (className : String) (endpoints : List EndpointForm)
    (groups : List (String × NormalForm))

/-- The name of the class of a container. -/
def NormalForm.className : NormalForm → String
  | .container className _ _ => className

/-- The fields of a GET request; absent fields and those of other requests are none. -/
def getFields : Request → Fields
  | .get fields => fields.getD []
  | _ => []

/-- The fields of a POST request; absent fields and those of other requests are none. -/
def postFields : Request → Fields
  | .post fields => fields.getD []
  | _ => []

/-- The form of the endpoint under a key. -/
def endpointForm (options : Options) (key : String) (endpoint : Endpoint) : EndpointForm where
  key := key
  url := endpoint.url.getD options.missingUrl
  verb := endpoint.request.verb
  params := getFields endpoint.request
  data := postFields endpoint.request

/-- The forms of the endpoints among children. -/
def endpointForms (options : Options) (children : List (String × Node)) : List EndpointForm :=
  (endpointsOf children).map fun child => endpointForm options child.1 child.2

mutual

/-- The form of the group under a key, as a list of at most one; other nodes have none. -/
def groupForm (options : Options) (key : String) : Node → List (String × NormalForm)
  | .endpoint _ => []
  | .group name _ _ children =>
    [(key, .container (groupClassName key name options.groupSuffix)
      (endpointForms options children) (groupForms options children))]
  | .foreign _ => []

/-- The forms of the groups among children, by key. -/
def groupForms (options : Options) : List (String × Node) → List (String × NormalForm)
  | [] => []
  | (key, node) :: rest => groupForm options key node ++ groupForms options rest

end

/-- The normal form of a schema. -/
def normalForm (options : Options) (schema : Schema) : NormalForm :=
  .container (options.rootClassName schema) (endpointForms options schema.children)
    (groupForms options schema.children)

/-! ## From the normal form to the classes -/

/-- The method of an endpoint. -/
def EndpointForm.method (form : EndpointForm) : Code.Method where
  url := form.url
  name := form.key
  verb := Text.lower form.verb
  params := argumentsOf (some form.params)
  data := argumentsOf (some form.data)

/-- The getter for the class of a group. -/
def getterOf (group : String × NormalForm) : Code.Getter where
  name := group.1
  target := group.2.className

mutual

/-- The classes of a container and of all groups in it, in pre-order. -/
def NormalForm.classes (exported : Bool) : NormalForm → List Code.ClassDecl
  | .container className endpoints groups =>
    ⟨className, exported, endpoints.map EndpointForm.method, groups.map getterOf⟩ ::
      classesBelow groups

/-- The classes of groups and of all groups in them. -/
def classesBelow : List (String × NormalForm) → List Code.ClassDecl
  | [] => []
  | (_, form) :: rest => form.classes false ++ classesBelow rest

end

theorem classesBelow_append (first second : List (String × NormalForm)) :
    classesBelow (first ++ second) = classesBelow first ++ classesBelow second := by
  induction first with
  | nil => rfl
  | cons group rest ih =>
    rw [List.cons_append, classesBelow, classesBelow, ih, List.append_assoc]

theorem method_endpointForm (options : Options) (key : String) (endpoint : Endpoint) :
    (endpointForm options key endpoint).method = methodOf options key endpoint := by
  cases hr : endpoint.request <;>
    simp [endpointForm, EndpointForm.method, methodOf, getFields, postFields, queryArguments,
      bodyArguments, argumentsOf, hr]

theorem map_method_endpointForms (options : Options) (children : List (String × Node)) :
    (endpointForms options children).map EndpointForm.method = methodsOf options children := by
  rw [endpointForms, methodsOf, List.map_map]
  exact List.map_congr_left fun child _ => method_endpointForm options child.1 child.2

theorem map_getterOf_groupForms (options : Options) (children : List (String × Node)) :
    (groupForms options children).map getterOf = gettersOf options children := by
  induction children with
  | nil => rfl
  | cons child rest ih =>
    obtain ⟨key, node⟩ := child
    rw [groupForms, List.map_append, ih]
    cases node <;> rfl

mutual

/-- The classes of the branches of a node are those of its form. -/
theorem map_classOf_branches (options : Options) (path : List String) (key : String) :
    ∀ node : Node, (node.branches (path ++ [key])).map (classOf options) =
      classesBelow (groupForm options key node)
  | .endpoint _ => rfl
  | .foreign _ => rfl
  | .group name url scope children => by
    have hbelow := map_classOf_branchesBelow options (path ++ [key]) children
    rw [Node.branches, List.map_cons, hbelow, groupForm, classesBelow, NormalForm.classes,
      map_method_endpointForms, map_getterOf_groupForms, ← withMembers_empty]
    simp [withMembers, classesBelow]

/-- The classes of the branches below a container are those of the forms of its groups. -/
theorem map_classOf_branchesBelow (options : Options) (path : List String) :
    ∀ children : List (String × Node), (branchesBelow path children).map (classOf options) =
      classesBelow (groupForms options children)
  | [] => rfl
  | (key, node) :: rest => by
    rw [branchesBelow, List.map_append, map_classOf_branches options path key node,
      map_classOf_branchesBelow options path rest, groupForms, classesBelow_append]

end

/-- The classes of a schema are those of its normal form. -/
theorem classes_normalForm (options : Options) (schema : Schema) :
    (normalForm options schema).classes true = schema.branches.map (classOf options) := by
  rw [normalForm, NormalForm.classes, map_method_endpointForms, map_getterOf_groupForms,
    Schema.branches, List.map_cons, map_classOf_branchesBelow]
  rfl

/-! ## From the classes to the normal form -/

/-- The verbs of endpoints that a document can describe. -/
def documentedVerbs : List String := ["GET", "POST", "PUT"]

/-- A method shows everything of its endpoint; lower case keeps the three verbs apart. -/
theorem EndpointForm.eq_of_method_eq {a b : EndpointForm} (ha : a.verb ∈ documentedVerbs)
    (hb : b.verb ∈ documentedVerbs) (h : a.method = b.method) : a = b := by
  have hfields : ∀ {first second : Fields},
      argumentsOf (some first) = argumentsOf (some second) → first = second := by
    intro first second heq
    have hmap := congrArg (List.map fun argument : Argument => (argument.name, argument.type)) heq
    rwa [map_argumentsOf, map_argumentsOf] at hmap
  have htable : ∀ v ∈ documentedVerbs, ∀ w ∈ documentedVerbs,
      Text.lower v = Text.lower w → v = w := by decide
  obtain ⟨key, url, verb, params, data⟩ := a
  obtain ⟨key', url', verb', params', data'⟩ := b
  obtain ⟨rfl, rfl, hverb, hparams, hdata, -⟩ := Code.Method.mk.inj h
  obtain rfl : verb = verb' := htable verb ha verb' hb hverb
  obtain rfl : params = params' := hfields hparams
  obtain rfl : data = data' := hfields hdata
  rfl

theorem endpoints_eq_of_methods_eq {as bs : List EndpointForm}
    (ha : ∀ form ∈ as, form.verb ∈ documentedVerbs) (hb : ∀ form ∈ bs, form.verb ∈ documentedVerbs)
    (h : as.map EndpointForm.method = bs.map EndpointForm.method) : as = bs := by
  induction as generalizing bs with
  | nil => exact (List.map_eq_nil_iff.1 h.symm).symm
  | cons a as ih =>
    cases bs with
    | nil => cases h
    | cons b bs =>
      obtain ⟨hfirst, hrest⟩ := List.cons.inj h
      rw [EndpointForm.eq_of_method_eq (ha a (List.mem_cons_self ..)) (hb b (List.mem_cons_self ..))
        hfirst]
      rw [ih (fun form hform => ha form (List.mem_cons_of_mem _ hform))
        (fun form hform => hb form (List.mem_cons_of_mem _ hform)) hrest]

mutual

/-- All endpoints of a form have one of the three verbs. -/
def NormalForm.HasVerbs : NormalForm → Prop
  | .container _ endpoints groups =>
    (∀ form ∈ endpoints, form.verb ∈ documentedVerbs) ∧ GroupsHaveVerbs groups

/-- All endpoints of the forms of groups have one of the three verbs. -/
def GroupsHaveVerbs : List (String × NormalForm) → Prop
  | [] => True
  | (_, form) :: rest => form.HasVerbs ∧ GroupsHaveVerbs rest

end

mutual

/-- **A pre-order list of classes** determines the form that it was written from, and the classes
    behind it. -/
theorem NormalForm.classes_append_inj {exported : Bool} {s t : List Code.ClassDecl} :
    ∀ a b : NormalForm, a.HasVerbs → b.HasVerbs →
    a.classes exported ++ s = b.classes exported ++ t → a = b ∧ s = t
  | .container className endpoints groups, .container className' endpoints' groups', ha, hb, h => by
    rw [NormalForm.classes, NormalForm.classes, List.cons_append, List.cons_append] at h
    obtain ⟨hclass, hbelow⟩ := List.cons.inj h
    obtain ⟨rfl, -, hmethods, hgetters⟩ := Code.ClassDecl.mk.inj hclass
    rw [NormalForm.HasVerbs] at ha hb
    -- the getters say under which keys groups follow, and so how many
    have hkeys : groups.map Prod.fst = groups'.map Prod.fst := by
      have hnames := congrArg (List.map Code.Getter.name) hgetters
      rw [List.map_map, List.map_map] at hnames
      exact hnames
    obtain ⟨rfl, rfl⟩ := classesBelow_append_inj groups groups' ha.2 hb.2 hkeys hbelow
    rw [endpoints_eq_of_methods_eq ha.1 hb.1 hmethods]
    exact ⟨rfl, rfl⟩

theorem classesBelow_append_inj {s t : List Code.ClassDecl} :
    ∀ groups groups' : List (String × NormalForm), GroupsHaveVerbs groups →
    GroupsHaveVerbs groups' → groups.map Prod.fst = groups'.map Prod.fst →
    classesBelow groups ++ s = classesBelow groups' ++ t → groups = groups' ∧ s = t
  | [], [], _, _, _, h => ⟨rfl, h⟩
  | [], _ :: _, _, _, hkeys, _ => by cases hkeys
  | _ :: _, [], _, _, hkeys, _ => by cases hkeys
  | (key, form) :: rest, (key', form') :: rest', hgroups, hgroups', hkeys, h => by
    rw [GroupsHaveVerbs] at hgroups hgroups'
    obtain ⟨hkey, hrestKeys⟩ := List.cons.inj hkeys
    obtain rfl : key = key' := hkey
    rw [classesBelow, classesBelow, List.append_assoc, List.append_assoc] at h
    obtain ⟨rfl, hrest⟩ := form.classes_append_inj form' hgroups.1 hgroups'.1 h
    obtain ⟨rfl, rfl⟩ := classesBelow_append_inj rest rest' hgroups.2 hgroups'.2 hrestKeys hrest
    exact ⟨rfl, rfl⟩

end

/-! ## Forms of documented schemas -/

theorem verb_mem_of_mem_endpointForms (options : Options) {children : List (String × Node)}
    (h : ∀ child ∈ children, child.2.isDocumented = true) :
    ∀ form ∈ endpointForms options children, form.verb ∈ documentedVerbs := by
  intro form hform
  obtain ⟨⟨key, endpoint⟩, hmem, rfl⟩ := List.mem_map.1 hform
  have hdocumented := h _ (mem_of_mem_endpointsOf hmem)
  simpa [Node.isDocumented, endpointForm, documentedVerbs] using hdocumented

theorem groupsHaveVerbs_append {first second : List (String × NormalForm)}
    (hfirst : GroupsHaveVerbs first) (hsecond : GroupsHaveVerbs second) :
    GroupsHaveVerbs (first ++ second) := by
  induction first with
  | nil => exact hsecond
  | cons group rest ih => exact ⟨hfirst.1, ih hfirst.2⟩

mutual

theorem groupForm_hasVerbs (options : Options) (path : List String) (key : String) :
    ∀ node : Node,
    (∀ branch ∈ node.branches path, ∀ child ∈ branch.children, child.2.isDocumented = true) →
    GroupsHaveVerbs (groupForm options key node)
  | .endpoint _, _ => trivial
  | .foreign _, _ => trivial
  | .group name url scope children, h => by
    rw [Node.branches] at h
    have hendpoints := verb_mem_of_mem_endpointForms options (h _ (List.mem_cons_self ..))
    have hgroups := groupForms_haveVerbs options path children
      fun branch hbranch => h branch (List.mem_cons_of_mem _ hbranch)
    exact ⟨⟨hendpoints, hgroups⟩, trivial⟩

theorem groupForms_haveVerbs (options : Options) (path : List String) :
    ∀ children : List (String × Node),
    (∀ branch ∈ branchesBelow path children, ∀ child ∈ branch.children,
      child.2.isDocumented = true) →
    GroupsHaveVerbs (groupForms options children)
  | [], _ => trivial
  | (key, node) :: rest, h => by
    rw [branchesBelow] at h
    have hnode := groupForm_hasVerbs options (path ++ [key]) key node
      fun branch hbranch => h branch (List.mem_append_left _ hbranch)
    have hrest := groupForms_haveVerbs options path rest
      fun branch hbranch => h branch (List.mem_append_right _ hbranch)
    rw [groupForms]
    exact groupsHaveVerbs_append hnode hrest

end

theorem normalForm_hasVerbs (options : Options) {schema : Schema} (h : schema.Documented) :
    (normalForm options schema).HasVerbs :=
  ⟨verb_mem_of_mem_endpointForms options (h _ (List.mem_cons_self ..)),
    groupForms_haveVerbs options [] schema.children
      fun branch hbranch => h branch (List.mem_cons_of_mem _ hbranch)⟩

/-! ## Equal modules -/

/-- **Two schemas have the same module exactly if they have the same normal form**, for all
    options. -/
theorem ofSchema_eq_iff_normalForm_eq (options : Options) {a b : Schema} (ha : a.Documented)
    (hb : b.Documented) :
    ∃ m n, ofSchema options a = .ok m ∧ ofSchema options b = .ok n ∧
      (m = n ↔ normalForm options a = normalForm options b) := by
  refine ⟨_, _, ofSchema_eq_ok options ha.allKnown, ofSchema_eq_ok options hb.allKnown, ?_⟩
  rw [← classes_normalForm, ← classes_normalForm]
  constructor
  · intro h
    have hclasses := (Code.Module.mk.inj h).2
    rw [← List.append_nil ((normalForm options a).classes true),
      ← List.append_nil ((normalForm options b).classes true)] at hclasses
    exact (NormalForm.classes_append_inj _ _ (normalForm_hasVerbs options ha)
      (normalForm_hasVerbs options hb) hclasses).1
  · intro h
    rw [h]

/-- An endpoint between two groups of one class name, one of which contains a third. -/
def mixedSchema : Schema where
  name := none
  url := some "/v1"
  scope := 0
  children := [
    ("a", .group (some "Node") (some "/a") 1 [("b", .group (some "Node") none 2 [])]),
    ("save", .endpoint ⟨none, .put (some [("id", "string")]), 3⟩),
    ("c", .group (some "Node") none 4 [])]

/-- The same, but for what a module does not show. -/
def sortedSchema : Schema where
  name := some "XSClient"
  url := none
  scope := 7
  children := [
    ("save", .endpoint ⟨some "TODO", .put none, 7⟩),
    ("a", .group (some "Node") none 7 [("b", .group (some "Node") none 7 [])]),
    ("c", .group (some "Node") (some "/c") 7 [])]

/-- The same but for the nesting: the inner group has moved from the first group to the second. -/
def movedSchema : Schema where
  name := none
  url := none
  scope := 0
  children := [
    ("save", .endpoint ⟨none, .put none, 1⟩),
    ("a", .group (some "Node") none 2 []),
    ("c", .group (some "Node") none 3 [("b", .group (some "Node") none 4 [])])]

theorem ofSchema_eq_iff_nesting :
    mixedSchema.Documented ∧ sortedSchema.Documented ∧ movedSchema.Documented ∧
      ofSchema {} mixedSchema = ofSchema {} sortedSchema ∧
      ofSchema {} mixedSchema ≠ ofSchema {} movedSchema := by
  have hmixed : mixedSchema.Documented := by decide
  have hsorted : sortedSchema.Documented := by decide
  have hmoved : movedSchema.Documented := by decide
  obtain ⟨m, n, hm, hn, hsame⟩ := ofSchema_eq_iff_normalForm_eq {} hmixed hsorted
  obtain ⟨m', n', hm', hn', hdiffer⟩ := ofSchema_eq_iff_normalForm_eq {} hmixed hmoved
  have hforms : normalForm {} mixedSchema = normalForm {} sortedSchema := rfl
  have hforms' : normalForm {} mixedSchema ≠ normalForm {} movedSchema := by
    simp [normalForm, groupForms, groupForm, mixedSchema, movedSchema]
  refine ⟨hmixed, hsorted, hmoved, by rw [hm, hn, hsame.2 hforms], fun heq => ?_⟩
  rw [hm', hn'] at heq
  exact hforms' (hdiffer.1 (Except.ok.inj heq))

end Client

end ApiScribe
