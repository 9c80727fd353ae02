import ApiScribe.Proofs.Client.ClassNames
import ApiScribe.Proofs.Client.Translation
import ApiScribe.Proofs.Document.Places

set_option autoImplicit false

/-! # Finding endpoints through getters

A client is used from its exported class: a chain of getters leads to a class, and a method of that
class sends the request. Getters and classes are joined by names alone, and a name may stand for
another class than the one that was meant. If the names of all classes differ, the chains of getters
are the keys that lead to groups in the document (`reaches_iff_follow`). So every endpoint has its
method where its keys lead, and nothing else is there to be found (`navigates_of_read`).

Both directions rest on one step: the getters of the class of a container lead to the classes of its
groups and to no others (`gives_iff_hasGroup`). That no class is left out or met twice is not seen
from steps; it comes from the list of branches, which has every container with its path
(`Schema.mem_branches_iff`). -/

namespace ApiScribe

open Document (LeadsTo DescribesEndpoint)

/-! ## Chains of getters -/

namespace Code.Module

/-- A getter of a class, by its name, gives an instance of a class, by its name. -/
def Gives (unit : Module) (decl : ClassDecl) (key : String) (next : ClassDecl) : Prop :=
  ∃ getter ∈ decl.getters, getter.name = key ∧ next ∈ unit.classes ∧ next.name = getter.target

/-- Getters lead from a class to another. -/
inductive Reaches (unit : Module) : ClassDecl → List String → ClassDecl → Prop
  | here (decl : ClassDecl) : Reaches unit decl [] decl
  | through {decl next target : ClassDecl} {key : String} {keys : List String}
      (hgives : unit.Gives decl key next) (hrest : Reaches unit next keys target) :
      Reaches unit decl (key :: keys) target

/-- Getters lead from a class to another, and at every step there is one getter of the name and one
    class of the name that it gives. -/
inductive ReachesOnly (unit : Module) : ClassDecl → List String → ClassDecl → Prop
  | here (decl : ClassDecl) : ReachesOnly unit decl [] decl
  | through {decl next target : ClassDecl} {key : String} {keys : List String} {getter : Getter}
      (hgetter : decl.getters.filter (·.name = key) = [getter])
      (hclass : unit.classes.filter (·.name = getter.target) = [next])
      (hrest : ReachesOnly unit next keys target) : ReachesOnly unit decl (key :: keys) target

end Code.Module

/-! ## One entry of a name -/

/-- Where names differ, a name selects one entry. -/
theorem filter_eq_singleton {α β : Type} [DecidableEq β] {f : α → β} {l : List α}
    (h : (l.map f).Nodup) {a : α} (ha : a ∈ l) : l.filter (f · = f a) = [a] := by
  induction l with
  | nil => simp at ha
  | cons b l ih =>
    obtain ⟨hnew, hrest⟩ := List.nodup_cons.1 h
    rcases List.mem_cons.1 ha with rfl | ha
    · rw [List.filter_cons_of_pos (by simp), List.filter_eq_nil_iff.2 fun c hc heq => ?_]
      exact hnew (of_decide_eq_true heq ▸ List.mem_map_of_mem hc)
    · have hne : f b ≠ f a := fun heq => hnew (heq ▸ List.mem_map_of_mem ha)
      rw [List.filter_cons_of_neg (by simpa using hne), ih hrest ha]

/-! ## Groups and keys -/

/-- The first of several keys is that of a group, and the others lead on from there. -/
theorem Branch.follow_cons_iff_hasGroup {container target : Branch}
    (h : Table.Distinct container.children) {key : String} {keys : List String} :
    container.follow (key :: keys) = some target ↔
      ∃ inner, container.HasGroup key inner ∧ inner.follow keys = some target := by
  rw [follow_cons_eq_some]
  constructor
  · rintro ⟨name, url, scope, children, hget, hrest⟩
    exact ⟨⟨container.path ++ [key], name, children⟩,
      ⟨rfl, url, scope, Table.mem_of_get? hget⟩, hrest⟩
  · rintro ⟨⟨path, name, children⟩, ⟨rfl, url, scope, hchild⟩, hrest⟩
    exact ⟨name, url, scope, children, Table.get?_of_mem h hchild, hrest⟩

namespace Client

section

variable {options : Options} {schema : Schema}

/-- The module of a schema without foreign nodes. -/
def moduleOf (options : Options) (schema : Schema) : Code.Module :=
  ⟨options.imports, schema.branches.map (classOf options)⟩

/-- Where class names differ, a class is that of one container. -/
theorem eq_of_className_eq (hnames : (classNames options schema).Nodup) {a b : Branch}
    (ha : a ∈ schema.branches) (hb : b ∈ schema.branches)
    (h : a.className options = b.className options) : a = b :=
  List.inj_on_of_nodup_map hnames ha hb h

/-- **One step.** The getters of the class of a container lead to the classes of its groups. -/
theorem gives_iff_hasGroup (hnames : (classNames options schema).Nodup) {container : Branch}
    (hcontainer : container ∈ schema.branches) {key : String} {next : Code.ClassDecl} :
    (moduleOf options schema).Gives (classOf options container) key next ↔
      ∃ inner, container.HasGroup key inner ∧ next = classOf options inner := by
  constructor
  · rintro ⟨getter, hgetter, rfl, hnext, hname⟩
    obtain ⟨inner, hgroup, htarget⟩ := exists_hasGroup_of_mem_gettersOf hgetter
    obtain ⟨branch, hbranch, rfl⟩ := List.mem_map.1 hnext
    have hinner := Schema.mem_branches_of_hasGroup hcontainer hgroup
    obtain rfl := eq_of_className_eq hnames hbranch hinner (hname.trans htarget.symm)
    exact ⟨branch, hgroup, rfl⟩
  · rintro ⟨inner, hgroup, rfl⟩
    obtain ⟨getter, hgetter, hname, htarget⟩ := exists_getter_of_hasGroup options hgroup
    have hinner := Schema.mem_branches_of_hasGroup hcontainer hgroup
    exact ⟨getter, hgetter, hname, List.mem_map_of_mem hinner, htarget.symm⟩

/-- **Chains of getters** are the keys that lead to containers. -/
theorem reaches_iff_follow (hkeyed : schema.Keyed) (hnames : (classNames options schema).Nodup)
    {container : Branch} (hcontainer : container ∈ schema.branches) {keys : List String}
    {decl : Code.ClassDecl} :
    (moduleOf options schema).Reaches (classOf options container) keys decl ↔
      ∃ inner, container.follow keys = some inner ∧ decl = classOf options inner := by
  induction keys generalizing container with
  | nil =>
    constructor
    · intro h
      cases h
      exact ⟨container, rfl, rfl⟩
    · rintro ⟨inner, hfollow, rfl⟩
      obtain rfl := Option.some.inj hfollow
      exact .here _
  | cons key keys ih =>
    constructor
    · intro h
      cases h with
      | through hgives hrest =>
        obtain ⟨next, hgroup, rfl⟩ := (gives_iff_hasGroup hnames hcontainer).1 hgives
        obtain ⟨inner, hfollow, rfl⟩ :=
          (ih (Schema.mem_branches_of_hasGroup hcontainer hgroup)).1 hrest
        exact ⟨inner, (Branch.follow_cons_iff_hasGroup (hkeyed container hcontainer).1).2
          ⟨next, hgroup, hfollow⟩, rfl⟩
    · rintro ⟨inner, hfollow, rfl⟩
      obtain ⟨next, hgroup, hfollow⟩ :=
        (Branch.follow_cons_iff_hasGroup (hkeyed container hcontainer).1).1 hfollow
      exact .through ((gives_iff_hasGroup hnames hcontainer).2 ⟨next, hgroup, rfl⟩)
        ((ih (Schema.mem_branches_of_hasGroup hcontainer hgroup)).2 ⟨inner, hfollow, rfl⟩)

/-- No two members of a class have one name. -/
theorem nodup_members (hknown : schema.AllKnown) (hkeyed : schema.Keyed) {branch : Branch}
    (hbranch : branch ∈ schema.branches) :
    ((classOf options branch).methods.map (·.name)).Nodup ∧
      ((classOf options branch).getters.map (·.name)).Nodup := by
  have hmembers := (isClassOf_classOf options hknown hkeyed hbranch).distinctMembers
  exact ⟨(List.nodup_append.1 hmembers).1, (List.nodup_append.1 hmembers).2.1⟩

/-- Every step along the keys of a group is the only one of its name. -/
theorem reachesOnly_of_follow (hknown : schema.AllKnown) (hkeyed : schema.Keyed)
    (hnames : (classNames options schema).Nodup) {container inner : Branch}
    (hcontainer : container ∈ schema.branches) {keys : List String}
    (hfollow : container.follow keys = some inner) :
    (moduleOf options schema).ReachesOnly (classOf options container) keys
      (classOf options inner) := by
  induction keys generalizing container with
  | nil =>
    obtain rfl := Option.some.inj hfollow
    exact .here _
  | cons key keys ih =>
    obtain ⟨next, hgroup, hrest⟩ :=
      (Branch.follow_cons_iff_hasGroup (hkeyed container hcontainer).1).1 hfollow
    have hnext := Schema.mem_branches_of_hasGroup hcontainer hgroup
    obtain ⟨getter, hgetter, rfl, htarget⟩ := exists_getter_of_hasGroup options hgroup
    have hclasses : ((moduleOf options schema).classes.map (·.name)).Nodup := by
      rw [moduleOf, names_classes]
      exact hnames
    refine .through (filter_eq_singleton (nodup_members hknown hkeyed hcontainer).2 hgetter) ?_
      (ih hnext hrest)
    rw [htarget]
    exact filter_eq_singleton hclasses (List.mem_map_of_mem hnext)

/-- Only the class of the root is exported. -/
theorem filter_exported (options : Options) (schema : Schema) :
    (moduleOf options schema).classes.filter (·.exported) = [classOf options schema.root] := by
  rw [moduleOf, Schema.branches, List.map_cons, List.filter_cons_of_pos rfl,
    List.filter_eq_nil_iff.2]
  intro decl hdecl
  obtain ⟨inner, hinner, rfl⟩ := List.mem_map.1 hdecl
  obtain ⟨container, -, key, hpath, -⟩ := Schema.exists_hasGroup hinner
  simp [classOf, hpath]

end

/-! ## Endpoints and methods -/

/-- Keys lead to an endpoint, which is an object without `apis`. -/
def EndpointAt (document : Json) (path : List String) (members : Json.Members) : Prop :=
  LeadsTo document path (.object members) ∧ members.get? "apis" = none

/-- A method is the only one of its name in a class, and it sends what an endpoint describes. -/
structure Serves (options : Options) (decl : Code.ClassDecl) (key : String)
    (members : Json.Members) (method : Code.Method) : Prop where
  only : decl.methods.filter (·.name = key) = [method]
  sends : ∃ endpoint, DescribesEndpoint members endpoint ∧ IsMethodOf options key endpoint method

/-- From its one exported class, a client has the endpoints of a document, each where its keys lead,
    and nothing else: every class has one chain of getters to it, and the keys of this chain and the
    name of a method lead to the endpoint of that method. -/
structure Navigates (options : Options) (document : Json) (unit : Code.Module)
    (root : Code.ClassDecl) : Prop where
  exported : unit.classes.filter (·.exported) = [root]
  found : ∀ keys key members, EndpointAt document (keys ++ [key]) members →
    ∃ decl method, unit.ReachesOnly root keys decl ∧ Serves options decl key members method
  reached : ∀ decl ∈ unit.classes, ∃ keys, unit.ReachesOnly root keys decl ∧
    (∀ other, unit.Reaches root other decl → other = keys) ∧
    ∀ method ∈ decl.methods, ∃ members,
      EndpointAt document (keys ++ [method.name]) members ∧
      Serves options decl method.name members method

section

variable {options : Options} {schema : Schema}

/-- The method of an endpoint stands alone in the class of the container. -/
theorem serves_of_mem (hknown : schema.AllKnown) (hkeyed : schema.Keyed) {container : Branch}
    (hcontainer : container ∈ schema.branches) {key : String} {endpoint : Endpoint}
    (hchild : (key, endpoint) ∈ endpointsOf container.children) {members : Json.Members}
    (hmembers : DescribesEndpoint members endpoint) :
    Serves options (classOf options container) key members (methodOf options key endpoint) where
  only := filter_eq_singleton (nodup_members hknown hkeyed hcontainer).1
    (List.mem_map_of_mem (f := fun child => methodOf options child.1 child.2) hchild)
  sends := ⟨endpoint, hmembers,
    isMethodOf_methodOf options key ((hkeyed container hcontainer).2 _ hchild)⟩

/-- **Navigation.** The client of an accepted document has every endpoint at the end of its own keys
    and nowhere else, if the names of its classes differ. No document that is read from a text
    repeats a key (`Json.isKeyed_of_read`). -/
theorem navigates_of_read {scopes scopes' : Scopes} {document : Json}
    (hread : Document.read scopes document = .ok (schema, scopes'))
    (hdocument : document.isKeyed = true) (options : Options)
    (hnames : (classNames options schema).Nodup) :
    ∃ unit root, ofSchema options schema = .ok unit ∧ Navigates options document unit root := by
  have hknown := Document.allKnown_of_read hread
  have hdescribed := Document.isDescribedBy_of_read hread
  have hkeyed := Schema.keyed_of_isDescribedBy hdocument hdescribed
  have hroot : schema.root ∈ schema.branches := List.mem_cons_self ..
  have hchildren : HoldsChildren document schema.root.children := hdescribed.holdsChildren
  have hmem : ∀ keys inner, schema.root.follow keys = some inner → inner ∈ schema.branches :=
    fun keys inner hfollow => List.mem_cons.2 (Branch.mem_branches_of_follow hfollow)
  refine ⟨_, classOf options schema.root, ofSchema_eq_ok options hknown, ?_⟩
  constructor
  case exported => exact filter_exported options schema
  case found =>
    rintro keys key members ⟨hleads, hapis⟩
    obtain ⟨inner, node, hfollow, hchild, hnode⟩ := exists_node_of_leadsTo hchildren
      (fun path inner hfollow => (hkeyed inner (hmem path inner hfollow)).1) hleads
    obtain ⟨endpoint, rfl, hmembers⟩ := exists_endpoint_of_isDescribedBy hnode hapis
    exact ⟨classOf options inner, methodOf options key endpoint,
      reachesOnly_of_follow hknown hkeyed hnames hroot hfollow,
      serves_of_mem hknown hkeyed (hmem keys inner hfollow) (mem_endpointsOf_of_mem hchild)
        hmembers⟩
  case reached =>
    intro decl hdecl
    obtain ⟨branch, hbranch, rfl⟩ := List.mem_map.1 hdecl
    have hfollow := (Schema.mem_branches_iff hkeyed).1 hbranch
    refine ⟨branch.path, reachesOnly_of_follow hknown hkeyed hnames hroot hfollow, ?_, ?_⟩
    · intro other hreaches
      obtain ⟨inner, hother, heq⟩ := (reaches_iff_follow hkeyed hnames hroot).1 hreaches
      -- the class is that of one container only, and this one has one path
      have hname : branch.className options = inner.className options :=
        congrArg (·.name) heq
      obtain rfl := eq_of_className_eq hnames hbranch (hmem other inner hother) hname
      exact (Branch.path_of_follow hother).symm
    · intro method hmethod
      obtain ⟨⟨key, endpoint⟩, hchild, rfl⟩ := List.mem_map.1 hmethod
      obtain ⟨target, hleads, hnode⟩ :=
        exists_leadsTo_of_follow (mem_of_mem_endpointsOf hchild) hchildren hfollow
      rw [Node.IsDescribedBy] at hnode
      obtain ⟨members, rfl, hapis, hmembers⟩ := hnode
      exact ⟨members, ⟨hleads, hapis⟩, serves_of_mem hknown hkeyed hbranch hchild hmembers⟩

end

/-- Two groups with an endpoint under one key, and one of them with a group inside. -/
def shelvesDocument : Json :=
  .object [("apis", .object [
    ("books", .object [("apis", .object [
      ("list", .object [("method", .string "get"), ("url", .string "/books")]),
      ("loans", .object [("apis", .object [])])])]),
    ("films", .object [("apis", .object [
      ("list", .object [("method", .string "post"),
        ("data", .object [("page", .string "number")])])])])])]

/-- The schema of this document. -/
def shelvesSchema : Schema where
  name := none
  url := none
  scope := 0
  children := [
    ("books", .group none none 1 [
      ("list", .endpoint ⟨some "/books", .get none, 2⟩),
      ("loans", .group none none 3 [])]),
    ("films", .group none none 4 [
      ("list", .endpoint ⟨none, .post (some [("page", "number")]), 5⟩)])]

theorem navigates_shelves : ∃ scopes unit root,
    Document.read {} shelvesDocument = .ok (shelvesSchema, scopes) ∧
      shelvesDocument.isKeyed = true ∧ (classNames {} shelvesSchema).Nodup ∧
      ofSchema {} shelvesSchema = .ok unit ∧ Navigates {} shelvesDocument unit root := by
  have hread : ∃ scopes, Document.read {} shelvesDocument = .ok (shelvesSchema, scopes) :=
    ⟨_, rfl⟩
  obtain ⟨scopes, hread⟩ := hread
  have hdocument : shelvesDocument.isKeyed = true := by decide
  have hnames : (classNames {} shelvesSchema).Nodup := by decide
  obtain ⟨unit, root, hunit, hnavigates⟩ := navigates_of_read hread hdocument {} hnames
  exact ⟨scopes, unit, root, hread, hdocument, hnames, hunit, hnavigates⟩

end Client

end ApiScribe
