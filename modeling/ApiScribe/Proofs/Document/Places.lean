import ApiScribe.Proofs.Document.Language
import ApiScribe.Proofs.Json.Keyed
import ApiScribe.Proofs.Schema.Branches
import Mathlib.Data.List.Forall2

set_option autoImplicit false

/-! # Where nodes stand in a document

Keys lead from the root of a document to its nodes, each from an object to an entry of its `apis`
(`LeadsTo`). The tree that is read has its nodes under the same keys: what keys lead to in the
document describes the node that they lead to in the tree (`exists_node_of_leadsTo`), and every node
of the tree comes from somewhere in the document (`exists_leadsTo_of_follow`).

A tree is searched by its keys, so they have to differ within each container, and so they do if no
object of the document repeats a key (`Schema.keyed_of_isDescribedBy`): two keys that differ, if
only in their halves, are marked differently. -/

namespace ApiScribe

/-! ## Keys that lead somewhere -/

namespace Document

/-- Keys lead from a value to another, each through the `apis` of an object. -/
inductive LeadsTo : Json → NodePath → Json → Prop
  | here (value : Json) : LeadsTo value [] value
  | child {members entries : Json.Members} {key : LooseText} {value target : Json} {path : NodePath}
      (hapis : members.get? "apis" = some (.object entries)) (hentry : (key, value) ∈ entries)
      (hrest : LeadsTo value path target) :
      LeadsTo (.object members) (key.marked :: path) target

theorem LeadsTo.nil_iff {value target : Json} : LeadsTo value [] target ↔ target = value := by
  constructor
  · intro h
    cases h
    rfl
  · rintro rfl
    exact .here _

theorem LeadsTo.cons_iff {value target : Json} {key : String} {path : NodePath} :
    LeadsTo value (key :: path) target ↔ ∃ members entries text child, value = .object members ∧
      Table.get? members "apis" = some (.object entries) ∧ (text, child) ∈ entries ∧
      text.marked = key ∧ LeadsTo child path target := by
  constructor
  · intro h
    cases h with
    | child hapis hentry hrest => exact ⟨_, _, _, _, rfl, hapis, hentry, rfl, hrest⟩
  · rintro ⟨members, entries, text, child, rfl, hapis, hentry, rfl, hrest⟩
    exact .child hapis hentry hrest

end Document

open Document (LeadsTo DescribesEndpoint HoldsText)

/-! ## Children and their entries -/

/-- Keys that differ are marked differently. -/
theorem nodup_marked {members : List (LooseText × Json)} (h : Table.Distinct members) :
    (members.map fun member => member.1.marked).Nodup := by
  have hmarked : members.map (fun member => member.1.marked) =
      (Table.keys members).map LooseText.marked := by
    rw [Table.keys, List.map_map]
    rfl
  rw [hmarked]
  exact List.Pairwise.map _ (fun _ _ hne heq => hne (LooseText.marked_injective heq)) h

/-- An entry describes a child, under the key of the child. -/
def DescribesChild (child : String × Node) (entry : LooseText × Json) : Prop :=
  child.1 = entry.1.marked ∧ child.2.IsDescribedBy entry.2

theorem childrenDescribedBy_iff_forall₂ {children : List (String × Node)}
    {entries : List (LooseText × Json)} :
    ChildrenDescribedBy children entries ↔ List.Forall₂ DescribesChild children entries := by
  induction children generalizing entries with
  | nil => cases entries <;> simp [ChildrenDescribedBy]
  | cons child children ih =>
    cases entries with
    | nil => simp [ChildrenDescribedBy]
    | cons entry entries =>
      rw [ChildrenDescribedBy, List.forall₂_cons, DescribesChild, and_assoc, ih]

/-- In lists that are related member by member, every member of the first has one in the second. -/
theorem exists_mem_of_forall₂ {α β : Type} {R : α → β → Prop} {as : List α} {bs : List β}
    (h : List.Forall₂ R as bs) {a : α} (ha : a ∈ as) : ∃ b ∈ bs, R a b := by
  induction h with
  | nil => simp at ha
  | cons hab _ ih =>
    rcases List.mem_cons.1 ha with rfl | ha
    · exact ⟨_, List.mem_cons_self .., hab⟩
    · obtain ⟨b, hb, hR⟩ := ih ha
      exact ⟨b, List.mem_cons_of_mem _ hb, hR⟩

theorem keys_of_childrenDescribedBy {children : List (String × Node)}
    {entries : List (LooseText × Json)} (h : ChildrenDescribedBy children entries) :
    children.map Prod.fst = entries.map fun entry => entry.1.marked := by
  rw [← List.forall₂_eq_eq_eq, List.forall₂_map_left_iff, List.forall₂_map_right_iff]
  exact (childrenDescribedBy_iff_forall₂.1 h).imp fun _ _ hchild => hchild.1

theorem exists_child_of_entry {children : List (String × Node)}
    {entries : List (LooseText × Json)} (h : ChildrenDescribedBy children entries)
    {text : LooseText} {value : Json} (hentry : (text, value) ∈ entries) :
    ∃ node, (text.marked, node) ∈ children ∧ node.IsDescribedBy value := by
  have hflip : List.Forall₂ (flip DescribesChild) entries children :=
    (childrenDescribedBy_iff_forall₂.1 h).flip
  obtain ⟨⟨key, node⟩, hchild, rfl, hnode⟩ := exists_mem_of_forall₂ hflip hentry
  exact ⟨node, hchild, hnode⟩

theorem exists_entry_of_child {children : List (String × Node)}
    {entries : List (LooseText × Json)} (h : ChildrenDescribedBy children entries)
    {key : String} {node : Node} (hchild : (key, node) ∈ children) :
    ∃ text value, (text, value) ∈ entries ∧ text.marked = key ∧ node.IsDescribedBy value := by
  obtain ⟨⟨text, value⟩, hentry, hkey, hnode⟩ :=
    exists_mem_of_forall₂ (childrenDescribedBy_iff_forall₂.1 h) hchild
  exact ⟨text, value, hentry, hkey.symm, hnode⟩

/-- A value has the children of a container among its members, or none if the container is empty. -/
def HoldsChildren (value : Json) (children : List (String × Node)) : Prop :=
  ∃ members, value = .object members ∧
    ((Table.get? members "apis" = none ∧ children = []) ∨
      ∃ entries, Table.get? members "apis" = some (.object entries) ∧
        ChildrenDescribedBy children entries)

theorem Schema.IsDescribedBy.holdsChildren {schema : Schema} {document : Json}
    (h : schema.IsDescribedBy document) : HoldsChildren document schema.children := by
  obtain ⟨members, rfl, -, -, hchildren⟩ := h
  exact ⟨members, rfl, hchildren⟩

theorem holdsChildren_of_group {name url : Option String} {scope : ScopeId}
    {children : List (String × Node)} {value : Json}
    (h : (Node.group name url scope children).IsDescribedBy value) :
    HoldsChildren value children := by
  rw [Node.IsDescribedBy] at h
  obtain ⟨members, entries, rfl, -, hapis, -, -, hchildren⟩ := h
  exact ⟨members, rfl, .inr ⟨entries, hapis, hchildren⟩⟩

theorem HoldsChildren.entries {members entries : Json.Members} {children : List (String × Node)}
    (h : HoldsChildren (.object members) children)
    (hapis : members.get? "apis" = some (.object entries)) :
    ChildrenDescribedBy children entries := by
  obtain ⟨members', hmembers, ⟨hnone, -⟩ | ⟨entries', hsome, hchildren⟩⟩ := h
  · rw [← Json.object.inj hmembers, hapis] at hnone
    cases hnone
  · rw [← Json.object.inj hmembers, hapis] at hsome
    obtain rfl := Json.object.inj (Option.some.inj hsome)
    exact hchildren

/-- An object with members under `apis` describes nothing but a group. -/
theorem exists_group_of_isDescribedBy {node : Node} {members entries : Json.Members}
    (hnode : node.IsDescribedBy (.object members))
    (hapis : members.get? "apis" = some (.object entries)) :
    ∃ name url scope children, node = .group name url scope children ∧
      HoldsText (members.get? "name") name ∧ HoldsText (members.get? "url") url ∧
      ChildrenDescribedBy children entries := by
  cases node with
  | endpoint endpoint =>
    rw [Node.IsDescribedBy] at hnode
    obtain ⟨members', hmembers, hnone, -⟩ := hnode
    rw [← Json.object.inj hmembers, hapis] at hnone
    cases hnone
  | group name url scope children =>
    rw [Node.IsDescribedBy] at hnode
    obtain ⟨members', entries', hmembers, -, hsome, hname, hurl, hchildren⟩ := hnode
    obtain rfl := Json.object.inj hmembers
    rw [hapis] at hsome
    obtain rfl := Json.object.inj (Option.some.inj hsome)
    exact ⟨name, url, scope, children, rfl, hname, hurl, hchildren⟩
  | foreign kind =>
    rw [Node.IsDescribedBy] at hnode
    exact hnode.elim

/-- What describes a node with members under `apis` describes a group. -/
theorem exists_group_of_leadsTo {node : Node} {value target : Json} {key : String}
    {path : Document.NodePath} (hnode : node.IsDescribedBy value)
    (h : LeadsTo value (key :: path) target) :
    ∃ name url scope children, node = .group name url scope children := by
  obtain ⟨members, entries, -, -, rfl, hapis, -⟩ := LeadsTo.cons_iff.1 h
  obtain ⟨name, url, scope, children, hgroup, -⟩ := exists_group_of_isDescribedBy hnode hapis
  exact ⟨name, url, scope, children, hgroup⟩

/-- An object without `apis` describes nothing but an endpoint. -/
theorem exists_endpoint_of_isDescribedBy {node : Node} {members : Json.Members}
    (hnode : node.IsDescribedBy (.object members)) (hapis : members.get? "apis" = none) :
    ∃ endpoint, node = .endpoint endpoint ∧ DescribesEndpoint members endpoint := by
  cases node with
  | endpoint endpoint =>
    rw [Node.IsDescribedBy] at hnode
    obtain ⟨members', hmembers, -, hdescribes⟩ := hnode
    obtain rfl := Json.object.inj hmembers
    exact ⟨endpoint, rfl, hdescribes⟩
  | group name url scope children =>
    rw [Node.IsDescribedBy] at hnode
    obtain ⟨members', entries, hmembers, -, hsome, -⟩ := hnode
    rw [← Json.object.inj hmembers, hapis] at hsome
    cases hsome
  | foreign kind =>
    rw [Node.IsDescribedBy] at hnode
    exact hnode.elim

/-! ## From the document to the tree and back -/

/-- **What keys lead to in a document** describes the node that they lead to in the tree. -/
theorem exists_node_of_leadsTo {keys : List String} {key : String} {target : Json} :
    ∀ {branch : Branch} {value : Json}, HoldsChildren value branch.children →
    (∀ path inner, branch.follow path = some inner → Table.Distinct inner.children) →
    LeadsTo value (keys ++ [key]) target →
    ∃ inner node, branch.follow keys = some inner ∧ (key, node) ∈ inner.children ∧
      node.IsDescribedBy target := by
  induction keys with
  | nil =>
    intro branch value hvalue _ h
    obtain ⟨members, entries, text, child, rfl, hapis, hentry, rfl, hrest⟩ := LeadsTo.cons_iff.1 h
    obtain rfl := LeadsTo.nil_iff.1 hrest
    obtain ⟨node, hmem, hnode⟩ := exists_child_of_entry (hvalue.entries hapis) hentry
    exact ⟨branch, node, rfl, hmem, hnode⟩
  | cons first keys ih =>
    intro branch value hvalue hdistinct h
    obtain ⟨members, entries, text, child, rfl, hapis, hentry, rfl, hrest⟩ := LeadsTo.cons_iff.1 h
    obtain ⟨node, hmem, hnode⟩ := exists_child_of_entry (hvalue.entries hapis) hentry
    -- more keys follow, so the child is a group
    obtain ⟨name, url, scope, children, rfl⟩ : ∃ name url scope children,
        node = .group name url scope children := by
      cases keys <;> exact exists_group_of_leadsTo hnode hrest
    have hget := Table.get?_of_mem (hdistinct [] branch rfl) hmem
    let group : Branch := ⟨branch.path ++ [text.marked], name, children⟩
    have hgroup : HoldsChildren child group.children := holdsChildren_of_group hnode
    have hstep : ∀ path inner, group.follow path = some inner →
        branch.follow (text.marked :: path) = some inner := fun path inner hinner =>
      Branch.follow_cons_eq_some.2 ⟨name, url, scope, children, hget, hinner⟩
    obtain ⟨inner, node, hfollow, hchild, hdescribed⟩ :=
      ih hgroup (fun path inner hinner => hdistinct _ inner (hstep path inner hinner)) hrest
    exact ⟨inner, node, hstep keys inner hfollow, hchild, hdescribed⟩

/-- **Every node of the tree** is described by what its keys lead to in the document. -/
theorem exists_leadsTo_of_follow {keys : List String} {key : String} {inner : Branch}
    {node : Node} (hchild : (key, node) ∈ inner.children) :
    ∀ {branch : Branch} {value : Json}, HoldsChildren value branch.children →
    branch.follow keys = some inner →
    ∃ target, LeadsTo value (keys ++ [key]) target ∧ node.IsDescribedBy target := by
  have hentries : ∀ {value : Json} {children : List (String × Node)} {child : String × Node},
      HoldsChildren value children → child ∈ children → ∃ members entries,
        value = .object members ∧ Table.get? members "apis" = some (.object entries) ∧
        ChildrenDescribedBy children entries := by
    rintro value children child ⟨members, rfl, ⟨-, rfl⟩ | ⟨entries, hapis, hchildren⟩⟩ hmem
    · simp at hmem
    · exact ⟨members, entries, rfl, hapis, hchildren⟩
  induction keys with
  | nil =>
    intro branch value hvalue hfollow
    obtain rfl := Option.some.inj hfollow
    obtain ⟨members, entries, rfl, hapis, hchildren⟩ := hentries hvalue hchild
    obtain ⟨text, target, hentry, rfl, hnode⟩ := exists_entry_of_child hchildren hchild
    exact ⟨target, .child hapis hentry (.here target), hnode⟩
  | cons first keys ih =>
    intro branch value hvalue hfollow
    obtain ⟨name, url, scope, children, hget, hrest⟩ := Branch.follow_cons_eq_some.1 hfollow
    have hmem := Table.mem_of_get? hget
    obtain ⟨members, entries, rfl, hapis, hchildren⟩ := hentries hvalue hmem
    obtain ⟨text, child, hentry, rfl, hgroup⟩ := exists_entry_of_child hchildren hmem
    obtain ⟨target, hleads, hnode⟩ := ih (holdsChildren_of_group hgroup) hrest
    exact ⟨target, .child hapis hentry hleads, hnode⟩

/-! ## Trees without repeated keys -/

theorem distinct_of_holdsFields {members : Json.Members} (h : (Json.object members).isKeyed = true)
    {field : String} {fields : Option Fields}
    (hfields : Document.HoldsFields (members.get? field) fields) :
    Table.Distinct (fields.getD []) := by
  generalize hget : Table.get? members field = member at hfields
  cases hfields with
  | absent => exact .nil
  | null => exact .nil
  | @object entries fields htexts =>
    have hkeys := congrArg (List.map Prod.fst) htexts
    rw [List.map_map, List.map_map] at hkeys
    have hentries := (Json.isKeyed_object_iff.1 (Json.isKeyed_of_get? h hget)).1
    have hsame : Table.keys fields = entries.map fun entry => entry.1.marked := hkeys.symm
    rw [Option.getD_some, Table.Distinct, hsame]
    exact nodup_marked hentries

theorem distinct_of_describesEndpoint {members : Json.Members}
    (h : (Json.object members).isKeyed = true) {endpoint : Endpoint}
    (hendpoint : DescribesEndpoint members endpoint) :
    Table.Distinct (endpoint.request.fields?.getD []) := by
  have hrequest := hendpoint.request
  cases hkind : endpoint.request with
  | custom verb => exact .nil
  | _ fields =>
    rw [hkind] at hrequest
    exact distinct_of_holdsFields h hrequest.2

/-- Neither children nor fields of one node repeat a key. -/
def Branch.Keyed (branch : Branch) : Prop :=
  Table.Distinct branch.children ∧
    ∀ child ∈ endpointsOf branch.children, Table.Distinct (child.2.request.fields?.getD [])

theorem keyed_of_childrenDescribedBy {children : List (String × Node)}
    {entries : List (LooseText × Json)} (h : (Json.object entries).isKeyed = true)
    (hchildren : ChildrenDescribedBy children entries) (path : List String)
    (name : Option String) : Branch.Keyed ⟨path, name, children⟩ := by
  obtain ⟨hkeys, hentries⟩ := Json.isKeyed_object_iff.1 h
  constructor
  · show (children.map Prod.fst).Nodup
    rw [keys_of_childrenDescribedBy hchildren]
    exact nodup_marked hkeys
  · rintro ⟨key, endpoint⟩ hchild
    obtain ⟨text, value, hentry, -, hnode⟩ :=
      exists_entry_of_child hchildren (mem_of_mem_endpointsOf hchild)
    rw [Node.IsDescribedBy] at hnode
    obtain ⟨members, rfl, -, hendpoint⟩ := hnode
    exact distinct_of_describesEndpoint (hentries _ hentry) hendpoint

mutual

theorem Node.keyed_of_isDescribedBy {value : Json} (h : value.isKeyed = true) (path : List String) :
    ∀ node : Node, node.IsDescribedBy value → ∀ branch ∈ node.branches path, branch.Keyed
  | .endpoint _, _, branch, hbranch => by simp [Node.branches] at hbranch
  | .foreign _, _, branch, hbranch => by simp [Node.branches] at hbranch
  | .group name url scope children, hnode, branch, hbranch => by
    rw [Node.IsDescribedBy] at hnode
    obtain ⟨members, entries, rfl, -, hapis, -, -, hchildren⟩ := hnode
    have hentries := Json.isKeyed_of_get? h hapis
    rw [Node.branches] at hbranch
    rcases List.mem_cons.1 hbranch with rfl | hbelow
    · exact keyed_of_childrenDescribedBy hentries hchildren path name
    · exact keyed_below_of_childrenDescribedBy (Json.isKeyed_object_iff.1 hentries).2 path children
        hchildren branch hbelow

theorem keyed_below_of_childrenDescribedBy {entries : List (LooseText × Json)}
    (h : ∀ entry ∈ entries, entry.2.isKeyed = true) (path : List String) :
    ∀ children : List (String × Node), ChildrenDescribedBy children entries →
    ∀ branch ∈ branchesBelow path children, branch.Keyed
  | [], _, branch, hbranch => by simp [branchesBelow] at hbranch
  | (key, node) :: children, hchildren, branch, hbranch => by
    cases entries with
    | nil => exact hchildren.elim
    | cons entry entries =>
      obtain ⟨-, hnode, hrest⟩ := hchildren
      rw [branchesBelow] at hbranch
      rcases List.mem_append.1 hbranch with hbranch | hbranch
      · exact node.keyed_of_isDescribedBy (h entry (List.mem_cons_self ..)) (path ++ [key]) hnode
          branch hbranch
      · exact keyed_below_of_childrenDescribedBy
          (fun other hother => h other (List.mem_cons_of_mem _ hother)) path children hrest
          branch hbranch

end

/-- **A schema repeats no keys** if the document that describes it repeats none. -/
theorem Schema.keyed_of_isDescribedBy {schema : Schema} {document : Json}
    (h : document.isKeyed = true) (hschema : schema.IsDescribedBy document) : schema.Keyed := by
  obtain ⟨members, rfl, hchildren⟩ := hschema.holdsChildren
  intro branch hbranch
  rcases hchildren with ⟨-, hnil⟩ | ⟨entries, hapis, hchildren⟩
  · rw [Schema.branches, hnil, branchesBelow, List.mem_singleton] at hbranch
    rw [hbranch, Schema.root, hnil]
    exact ⟨.nil, by simp [endpointsOf]⟩
  · have hentries := Json.isKeyed_of_get? h hapis
    rcases List.mem_cons.1 hbranch with rfl | hbelow
    · exact keyed_of_childrenDescribedBy hentries hchildren [] schema.name
    · exact keyed_below_of_childrenDescribedBy (Json.isKeyed_object_iff.1 hentries).2 []
        schema.children hchildren branch hbelow

end ApiScribe
