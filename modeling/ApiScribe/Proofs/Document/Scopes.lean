import ApiScribe.Proofs.Document.Steps
import ApiScribe.Proofs.Scope.Lineage

set_option autoImplicit false

/-! # The scopes of a schema from a document

Reading makes a scope for every node, and nothing in the text of a client shows whether it is the
right one. A `Site` is a node with its scope and the scopes of the containers around it, as the
tree has them. The scopes of all nodes are different, and the parent of each is the scope of the
container that holds the node (`FollowsNesting`). So a key that is looked up from a node has the
value last written to the nearest of the nodes around it, and a write to a node shows nowhere but
in the node itself and inside it.

The induction follows the tree that was read. Its invariant (`LaidOut`) is about the nodes of one
part of the tree: their scopes are those made while that part was read, and reading what comes
after adds scopes but changes none. -/

namespace ApiScribe

/-! ## Nodes with the scopes around them -/

/-- A node of a schema: the keys that lead to it, its scope, and the scopes of the containers around
    it, from the inside out. -/
structure Site where
  path : List String
  scope : ScopeId
  around : List ScopeId
deriving DecidableEq

/-- The number of containers that a node lies in. -/
def Site.level (site : Site) : Nat := site.path.length

/-- The scopes from a node out to the root. -/
def Site.scopes (site : Site) : List ScopeId := site.scope :: site.around

mutual

/-- The sites of a node, to which `path` leads, and of all nodes in it. -/
def Node.sites (around : List ScopeId) (path : List String) : Node → List Site
  | .endpoint endpoint => [⟨path, endpoint.scope, around⟩]
  | .group _ _ scope children => ⟨path, scope, around⟩ :: sitesBelow (scope :: around) path children
  | .foreign _ => []

/-- The sites of children and of all nodes in them. -/
def sitesBelow (around : List ScopeId) (path : List String) : List (String × Node) → List Site
  | [] => []
  | (key, node) :: rest => node.sites around (path ++ [key]) ++ sitesBelow around path rest

end

/-- The root of a schema as a site. -/
def Schema.rootSite (schema : Schema) : Site := ⟨[], schema.scope, []⟩

/-- The sites of a schema, the root first. -/
def Schema.sites (schema : Schema) : List Site :=
  schema.rootSite :: sitesBelow [schema.scope] [] schema.children

/-- One site is that of a child of the container at another. -/
def Site.IsIn (site container : Site) : Prop :=
  (∃ key, site.path = container.path ++ [key]) ∧ site.around = container.scopes

mutual

/-- A site of a node is that of the node itself or lies in another one. -/
theorem Node.exists_isIn {around : List ScopeId} {path : List String} : ∀ node : Node,
    ∀ site ∈ node.sites around path, (site.path = path ∧ site.around = around) ∨
      ∃ container ∈ node.sites around path, site.IsIn container
  | .endpoint endpoint, site, h => by
    rw [Node.sites, List.mem_singleton] at h
    rw [h]
    exact .inl ⟨rfl, rfl⟩
  | .foreign _, site, h => by simp [Node.sites] at h
  | .group _ _ scope children, site, h => by
    rw [Node.sites] at h ⊢
    rcases List.mem_cons.1 h with rfl | hbelow
    · exact .inl ⟨rfl, rfl⟩
    · refine .inr ?_
      rcases exists_isIn_below children site hbelow with hself | ⟨container, hmem, hin⟩
      · exact ⟨_, List.mem_cons_self .., hself⟩
      · exact ⟨container, List.mem_cons_of_mem _ hmem, hin⟩

/-- A site below a container is that of one of its children or lies in another one below. -/
theorem exists_isIn_below {around : List ScopeId} {path : List String} :
    ∀ children : List (String × Node), ∀ site ∈ sitesBelow around path children,
    ((∃ key, site.path = path ++ [key]) ∧ site.around = around) ∨
      ∃ container ∈ sitesBelow around path children, site.IsIn container
  | [], site, h => by simp [sitesBelow] at h
  | (key, node) :: rest, site, h => by
    rw [sitesBelow] at h ⊢
    rcases List.mem_append.1 h with hnode | hrest
    · rcases node.exists_isIn site hnode with ⟨hpath, haround⟩ | ⟨container, hmem, hin⟩
      · exact .inl ⟨⟨key, hpath⟩, haround⟩
      · exact .inr ⟨container, List.mem_append_left _ hmem, hin⟩
    · rcases exists_isIn_below rest site hrest with hself | ⟨container, hmem, hin⟩
      · exact .inl hself
      · exact .inr ⟨container, List.mem_append_right _ hmem, hin⟩

end

/-- Every site but the root lies in the container at another site. -/
theorem Schema.eq_root_or_isIn {schema : Schema} {site : Site} (h : site ∈ schema.sites) :
    site = schema.rootSite ∨ ∃ container ∈ schema.sites, site.IsIn container := by
  rcases List.mem_cons.1 h with rfl | hbelow
  · exact .inl rfl
  · refine .inr ?_
    rcases exists_isIn_below schema.children site hbelow with hself | ⟨container, hmem, hin⟩
    · exact ⟨schema.rootSite, List.mem_cons_self .., hself⟩
    · exact ⟨container, List.mem_cons_of_mem _ hmem, hin⟩

/-- What holds of the root, and of every site in a container of which it holds, holds of all. -/
theorem Schema.sites_induction {schema : Schema} {motive : Site → Prop}
    (root : motive schema.rootSite)
    (inside : ∀ site container, site.IsIn container → container ∈ schema.sites →
      motive container → motive site) : ∀ site ∈ schema.sites, motive site := by
  have hall : ∀ (n : Nat) (site : Site), site.level = n → site ∈ schema.sites → motive site := by
    intro n
    induction n with
    | zero =>
      intro site hlevel hsite
      rcases eq_root_or_isIn hsite with rfl | ⟨container, -, ⟨key, hpath⟩, -⟩
      · exact root
      · simp [Site.level, hpath] at hlevel
    | succ n ih =>
      intro site hlevel hsite
      rcases eq_root_or_isIn hsite with rfl | ⟨container, hmem, hin⟩
      · exact root
      · obtain ⟨key, hpath⟩ := hin.1
        have hcontainer : container.level = n := by simpa [Site.level, hpath] using hlevel
        exact inside site container hin hmem (ih container hcontainer hmem)
  exact fun site hsite => hall site.level site rfl hsite

/-- A node lies in as many containers as there are keys on the way to it. -/
theorem Schema.length_around {schema : Schema} :
    ∀ site ∈ schema.sites, site.around.length = site.level := by
  refine sites_induction rfl fun site container hin _ ih => ?_
  obtain ⟨⟨key, hpath⟩, haround⟩ := hin
  simp only [Site.level] at ih ⊢
  simp [hpath, haround, Site.scopes, ih]

/-- The scopes around a node are scopes of nodes. -/
theorem Schema.scopes_subset {schema : Schema} :
    ∀ site ∈ schema.sites, ∀ id ∈ site.scopes, id ∈ schema.sites.map Site.scope := by
  have hself : ∀ site ∈ schema.sites, site.scope ∈ schema.sites.map Site.scope :=
    fun site hsite => List.mem_map_of_mem hsite
  have haround : ∀ site ∈ schema.sites, ∀ id ∈ site.around, id ∈ schema.sites.map Site.scope := by
    refine sites_induction (by simp [rootSite]) fun site container hin hmem ih id hid => ?_
    rw [hin.2] at hid
    rcases List.mem_cons.1 hid with rfl | hid
    · exact hself container hmem
    · exact ih id hid
  intro site hsite id hid
  rcases List.mem_cons.1 hid with rfl | hid
  · exact hself site hsite
  · exact haround site hsite id hid

/-! ## What a reading leaves behind -/

/-- Sites whose scopes were made on the way from one store to another. -/
structure LaidOut (scopes after : Scopes) (sites : List Site) : Prop where
  grows : scopes.size ≤ after.size
  unchanged : ∀ id, id < scopes.size → after.scope? id = scopes.scope? id
  made : ∀ site ∈ sites, scopes.size ≤ site.scope ∧ site.scope < after.size
  distinct : (sites.map Site.scope).Nodup
  lineage : ∀ site ∈ sites, after.IsLineage site.scopes
  unbound : ∀ site ∈ sites, ∀ key, after.ownValue? site.scope key = none

namespace LaidOut

theorem none (scopes : Scopes) : LaidOut scopes scopes [] where
  grows := Nat.le_refl _
  unchanged := fun _ _ => rfl
  made := by simp
  distinct := .nil
  lineage := by simp
  unbound := by simp

theorem keeps {scopes after : Scopes} {sites : List Site} (h : LaidOut scopes after sites) :
    scopes.Keeps after := by
  intro id scope hscope
  exact ⟨scope, (h.unchanged id (Scopes.lt_size_of_scope? hscope)).trans hscope, rfl⟩

/-- One part of the tree after the other. -/
theorem append {scopes middle after : Scopes} {first second : List Site}
    (hfirst : LaidOut scopes middle first) (hsecond : LaidOut middle after second) :
    LaidOut scopes after (first ++ second) where
  grows := Nat.le_trans hfirst.grows hsecond.grows
  unchanged := by
    intro id hid
    rw [hsecond.unchanged id (Nat.lt_of_lt_of_le hid hfirst.grows), hfirst.unchanged id hid]
  made := by
    intro site hsite
    rcases List.mem_append.1 hsite with hsite | hsite
    · obtain ⟨hfrom, hto⟩ := hfirst.made site hsite
      exact ⟨hfrom, Nat.lt_of_lt_of_le hto hsecond.grows⟩
    · obtain ⟨hfrom, hto⟩ := hsecond.made site hsite
      exact ⟨Nat.le_trans hfirst.grows hfrom, hto⟩
  distinct := by
    rw [List.map_append, List.nodup_append]
    refine ⟨hfirst.distinct, hsecond.distinct, ?_⟩
    -- the scopes of the second part are newer than all of the first
    intro a ha b hb
    obtain ⟨site, hsite, rfl⟩ := List.mem_map.1 ha
    obtain ⟨other, hother, rfl⟩ := List.mem_map.1 hb
    exact Nat.ne_of_lt (Nat.lt_of_lt_of_le (hfirst.made site hsite).2 (hsecond.made other hother).1)
  lineage := by
    intro site hsite
    rcases List.mem_append.1 hsite with hsite | hsite
    · exact (hfirst.lineage site hsite).keeps hsecond.keeps
    · exact hsecond.lineage site hsite
  unbound := by
    intro site hsite key
    rcases List.mem_append.1 hsite with hsite | hsite
    · rw [Scopes.ownValue?, hsecond.unchanged _ (hfirst.made site hsite).2]
      exact hfirst.unbound site hsite key
    · exact hsecond.unbound site hsite key

/-- A new scope without bindings, in no other or in one whose lineage is known. -/
theorem create (scopes : Scopes) (path : List String) {around : List ScopeId}
    (haround : around = [] ∨ scopes.IsLineage around) :
    LaidOut scopes (scopes.create [] around.head?).2 [⟨path, scopes.size, around⟩] := by
  have hself := scopes.scope?_create_self [] around.head?
  have hgrows : scopes.size < (scopes.create [] around.head?).2.size := Nat.lt_succ_self _
  have hunchanged : ∀ id, id < scopes.size →
      (scopes.create [] around.head?).2.scope? id = scopes.scope? id :=
    fun id hid => Scopes.scope?_create_of_lt hid [] around.head?
  have hkeeps : scopes.Keeps (scopes.create [] around.head?).2 := fun id scope hscope =>
    ⟨scope, (hunchanged id (Scopes.lt_size_of_scope? hscope)).trans hscope, rfl⟩
  constructor
  case grows => exact Nat.le_of_lt hgrows
  case unchanged => exact hunchanged
  case made => simpa using hgrows
  case distinct => simp
  case unbound =>
    intro site hsite key
    obtain rfl := List.mem_singleton.1 hsite
    rw [Scopes.ownValue?, hself]
    rfl
  case lineage =>
    intro site hsite
    obtain rfl := List.mem_singleton.1 hsite
    cases around with
    | nil => exact .outermost hself rfl
    | cons parent around =>
      have haround : scopes.IsLineage (parent :: around) := by simpa using haround
      obtain ⟨scope, hscope, -⟩ := haround.exists_scope?
      exact .within hself rfl (Scopes.lt_size_of_scope? hscope) (haround.keeps hkeeps)

end LaidOut

namespace Document

mutual

/-- Reading a node lays out its sites. -/
theorem laidOut_of_readNode {parent : ScopeId} {path : NodePath} {scopes after : Scopes}
    {value : Json} {around : List ScopeId} (haround : scopes.IsLineage (parent :: around))
    (keys : List String) : ∀ node : Node,
    readNode parent path scopes value = .ok (node, after) →
    LaidOut scopes after (node.sites (parent :: around) keys)
  | .endpoint endpoint, h => by
    obtain ⟨_, -, ⟨-, rfl, _, heq, hscope, -⟩ | ⟨-, _, _, _, _, -, heq, -⟩⟩ :=
      readNode_eq_ok_iff.1 h
    · obtain rfl := Node.endpoint.inj heq
      rw [Node.sites, hscope]
      exact LaidOut.create scopes keys (.inr haround)
    · cases heq
  | .foreign kind, h => by
    obtain ⟨_, -, ⟨-, -, _, heq, -⟩ | ⟨-, _, _, _, _, -, heq, -⟩⟩ := readNode_eq_ok_iff.1 h
    · cases heq
    · cases heq
  | .group name url scope children, h => by
    obtain ⟨_, -, ⟨-, -, _, heq, -⟩ | ⟨-, _, _, _, _, -, heq, -, -, hentries⟩⟩ :=
      readNode_eq_ok_iff.1 h
    · cases heq
    · obtain ⟨-, -, rfl, rfl⟩ := Node.group.inj heq
      have hself := LaidOut.create scopes keys (.inr haround)
      have hbelow := laidOut_of_readEntries (hself.lineage _ (List.mem_singleton_self _)) keys
        children hentries
      rw [Node.sites]
      exact hself.append hbelow

/-- Reading children lays out their sites, one child after the other. -/
theorem laidOut_of_readEntries {scope : ScopeId} {path : NodePath} {scopes after : Scopes}
    {entries : List (LooseText × Json)} {around : List ScopeId}
    (haround : scopes.IsLineage (scope :: around)) (keys : List String) :
    ∀ children : List (String × Node),
    readEntries scope path scopes entries = .ok (children, after) →
    LaidOut scopes after (sitesBelow (scope :: around) keys children)
  | [], h => by
    cases entries with
    | nil =>
      obtain ⟨-, rfl⟩ := readEntries_nil_eq_ok_iff.1 h
      exact LaidOut.none _
    | cons entry entries =>
      obtain ⟨_, _, _, -, -, heq⟩ := readEntries_cons_eq_ok_iff.1 h
      cases heq
  | (key, node) :: children, h => by
    cases entries with
    | nil =>
      obtain ⟨heq, -⟩ := readEntries_nil_eq_ok_iff.1 h
      cases heq
    | cons entry entries =>
      obtain ⟨_, within, _, hnode, hmore, heq⟩ := readEntries_cons_eq_ok_iff.1 h
      obtain ⟨hchild, rfl⟩ := List.cons.inj heq
      obtain ⟨rfl, rfl⟩ := Prod.mk.inj hchild
      have hfirst := laidOut_of_readNode haround (keys ++ [entry.1.marked]) node hnode
      have hrest := laidOut_of_readEntries (haround.keeps hfirst.keeps) keys children hmore
      rw [sitesBelow]
      exact hfirst.append hrest

end

/-- Reading a document lays out the sites of its schema. -/
theorem laidOut_of_read {scopes after : Scopes} {document : Json} {schema : Schema}
    (h : read scopes document = .ok (schema, after)) : LaidOut scopes after schema.sites := by
  obtain ⟨members, -, hscope, -, -, hchildren⟩ := read_eq_ok_iff.1 h
  have hroot := LaidOut.create scopes [] (.inl rfl)
  rw [Schema.sites, Schema.rootSite, hscope]
  rcases hchildren with ⟨-, hnil, rfl⟩ | ⟨entries, -, hentries⟩
  · rw [hnil]
    exact hroot
  · exact hroot.append (laidOut_of_readEntries (hroot.lineage _ (List.mem_singleton_self _)) []
      schema.children hentries)

end Document

/-! ## Scopes that follow the nesting -/

/-- The scopes of a schema are as its tree has them, and every lookup after any run of writes to
    them goes outwards along the tree. -/
structure FollowsNesting (schema : Schema) (scopes : Scopes) : Prop where
  distinct : (schema.sites.map Site.scope).Nodup
  root : scopes.parent? schema.scope = none
  parent : ∀ site ∈ schema.sites, site = schema.rootSite ∨
    ∃ container ∈ schema.sites, site.IsIn container ∧
      scopes.parent? site.scope = some container.scope
  depth : ∀ site ∈ schema.sites, scopes.depth site.scope = site.level
  lookup : ∀ writes : List Scopes.Write,
    (∀ write ∈ writes, write.scope ∈ schema.sites.map Site.scope) →
    ∀ site ∈ schema.sites, ∀ key,
      (scopes.run writes).get? site.scope key =
        site.scopes.findSome? (Scopes.lastWritten writes key)
  elsewhere : ∀ writes : List Scopes.Write,
    (∀ write ∈ writes, write.scope ∈ schema.sites.map Site.scope) →
    ∀ written ∈ schema.sites, ∀ site ∈ schema.sites, written.scope ∉ site.scopes →
    ∀ key value other,
      ((scopes.run writes).insert written.scope key value).get? site.scope other =
        (scopes.run writes).get? site.scope other

/-- After any run of writes to the scopes of a schema, a key is looked up in what was last written
    to the scopes around. -/
theorem LaidOut.get?_run {scopes after : Scopes} {schema : Schema}
    (h : LaidOut scopes after schema.sites) {writes : List Scopes.Write}
    (hwrites : ∀ write ∈ writes, write.scope ∈ schema.sites.map Site.scope)
    {site : Site} (hsite : site ∈ schema.sites) (key : String) :
    (after.run writes).get? site.scope key =
      site.scopes.findSome? (Scopes.lastWritten writes key) := by
  have hsize : ∀ write ∈ writes, write.scope < after.size := by
    intro write hwrite
    obtain ⟨other, hother, heq⟩ := List.mem_map.1 (hwrites write hwrite)
    exact heq ▸ (h.made other hother).2
  have hlineage : (after.run writes).IsLineage (site.scope :: site.around) :=
    (h.lineage site hsite).keeps (after.keeps_run writes)
  rw [hlineage.get?_eq]
  refine findSome?_congr fun id hid => ?_
  obtain ⟨other, hother, rfl⟩ := List.mem_map.1 (Schema.scopes_subset site hsite id hid)
  rw [Scopes.ownValue?_run hsize, h.unbound other hother, Option.or_none]

namespace Document

/-- **The scopes of an accepted document follow its nesting.** -/
theorem read_followsNesting {scopes after : Scopes} {document : Json} {schema : Schema}
    (h : read scopes document = .ok (schema, after)) : FollowsNesting schema after := by
  have hlaid := laidOut_of_read h
  constructor
  case distinct => exact hlaid.distinct
  case root => exact (hlaid.lineage schema.rootSite (List.mem_cons_self ..)).parent?_eq
  case parent =>
    intro site hsite
    refine (Schema.eq_root_or_isIn hsite).imp_right fun ⟨container, hmem, hin⟩ => ?_
    refine ⟨container, hmem, hin, ?_⟩
    rw [(hlaid.lineage site hsite).parent?_eq, hin.2]
    rfl
  case depth =>
    intro site hsite
    rw [(hlaid.lineage site hsite).depth_eq, Schema.length_around site hsite]
  case lookup => exact fun writes hwrites site hsite key => hlaid.get?_run hwrites hsite key
  case elsewhere =>
    intro writes hwrites written hwritten site hsite houtside key value other
    -- the write is the last of a run that is one longer
    have hlonger : ∀ write ∈ writes ++ [⟨written.scope, key, value⟩],
        write.scope ∈ schema.sites.map Site.scope := by
      intro write hwrite
      rcases List.mem_append.1 hwrite with hwrite | hwrite
      · exact hwrites write hwrite
      · rw [List.mem_singleton.1 hwrite]
        exact List.mem_map_of_mem hwritten
    have hrun : after.run (writes ++ [⟨written.scope, key, value⟩]) =
        (after.run writes).insert written.scope key value := List.foldl_append
    rw [← hrun, hlaid.get?_run hlonger hsite, hlaid.get?_run hwrites hsite]
    refine findSome?_congr fun id hid => ?_
    have hne : written.scope ≠ id := fun heq => houtside (heq ▸ hid)
    simp [Scopes.lastWritten, hne]

/-- A document with an endpoint in a group and another one beside the group. -/
def sharedDocument : Json :=
  .object [("apis", .object [
    ("users", .object [("apis", .object [("list", .object [("method", .string "get")])])]),
    ("ping", .object [("method", .string "PUT")])])]

/-- Its schema. -/
def sharedSchema : Schema where
  name := none
  url := none
  scope := 0
  children := [
    ("users", .group none none 1 [("list", .endpoint ⟨none, .get none, 2⟩)]),
    ("ping", .endpoint ⟨none, .put none, 3⟩)]

/-- What is written to the group hides what is written to the root inside the group, and nowhere
    else. -/
theorem read_followsNesting_shared :
    ∃ after, read {} sharedDocument = .ok (sharedSchema, after) ∧
      FollowsNesting sharedSchema after ∧
      (after.run [⟨1, "lang", .string "de"⟩, ⟨0, "lang", .string "en"⟩]).get? 2 "lang" =
        some (.string "de") ∧
      (after.run [⟨1, "lang", .string "de"⟩, ⟨0, "lang", .string "en"⟩]).get? 3 "lang" =
        some (.string "en") ∧
      (after.run [⟨1, "lang", .string "de"⟩, ⟨0, "lang", .string "en"⟩]).get? 2 "page" = none := by
  obtain ⟨after, hread⟩ : ∃ after, read {} sharedDocument = .ok (sharedSchema, after) := ⟨_, rfl⟩
  have hnesting := read_followsNesting hread
  have hlookup := hnesting.lookup [⟨1, "lang", .string "de"⟩, ⟨0, "lang", .string "en"⟩]
    (by decide)
  refine ⟨after, hread, hnesting, ?_, ?_, ?_⟩
  · exact hlookup ⟨["users", "list"], 2, [1, 0]⟩ (by decide) "lang"
  · exact hlookup ⟨["ping"], 3, [0]⟩ (by decide) "lang"
  · exact hlookup ⟨["users", "list"], 2, [1, 0]⟩ (by decide) "page"

end Document

end ApiScribe
