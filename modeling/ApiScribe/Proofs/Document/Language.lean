import ApiScribe.Proofs.Document.Steps

set_option autoImplicit false

/-! # The language of documents

Which JSON values are documents, and which tree each of them describes, said without the reader.
`IsDocument` is about the value alone, and `Schema.IsDescribedBy` holds a tree against a value, node
by node and key by key. The reader accepts exactly the documents, and what it gives is described by
what it was given (`read_iff_isDocument`).

From a reading to the description the recursion is on the tree that was read. In the other direction
it is on the derivation that a value is valid: a valid value is read under any path and with any
scopes, since neither decides whether a check succeeds. -/

namespace ApiScribe

namespace Document

/-! ## Valid documents -/

/-- Nothing, null or a text. -/
def IsOptionalText (member : Option Json) : Prop :=
  member = none ∨ member = some .null ∨ ∃ content, member = some (.string content)

/-- Nothing, null or an object of texts. -/
def IsOptionalFields (member : Option Json) : Prop :=
  member = none ∨ member = some .null ∨ ∃ entries, member = some (.object entries) ∧
    ∀ entry ∈ entries, ∃ content, entry.2 = .string content

instance : DecidablePred IsOptionalText
  | none => isTrue (.inl rfl)
  | some .null => isTrue (.inr (.inl rfl))
  | some (.string content) => isTrue (.inr (.inr ⟨content, rfl⟩))
  | some (.bool _) | some (.number _) | some (.array _) | some (.object _) =>
    isFalse (by simp [IsOptionalText])

theorem exists_string_iff {value : Json} :
    (∃ content, value = .string content) ↔ value.text?.isSome = true := by
  cases value <;> simp [Json.text?]

instance : DecidablePred IsOptionalFields
  | none => isTrue (.inl rfl)
  | some .null => isTrue (.inr (.inl rfl))
  | some (.object entries) =>
    decidable_of_iff (∀ entry ∈ entries, entry.2.text?.isSome = true)
      (by simp [IsOptionalFields, exists_string_iff])
  | some (.bool _) | some (.number _) | some (.string _) | some (.array _) =>
    isFalse (by simp [IsOptionalFields])

/-- The fields that a verb asks for, in upper case, and none of the other kind, not even null. -/
def AllowsFields (members : Json.Members) (verb : String) : Prop :=
  (verb = "GET" ∧ members.get? "data" = none ∧ IsOptionalFields (members.get? "params")) ∨
    ((verb = "POST" ∨ verb = "PUT") ∧ members.get? "params" = none ∧
      IsOptionalFields (members.get? "data"))

/-- A value is valid as a child: an endpoint, or a group whose children are valid. -/
inductive IsNode : Json → Prop
  | endpoint {members : Json.Members} {method : LooseText}
      (hapis : members.get? "apis" = none)
      (hmethod : members.get? "method" = some (.string method))
      (hfields : AllowsFields members (Text.upper method.marked))
      (hurl : IsOptionalText (members.get? "url")) : IsNode (.object members)
  | group {members entries : Json.Members}
      (hmethod : members.get? "method" = none)
      (hapis : members.get? "apis" = some (.object entries))
      (hname : IsOptionalText (members.get? "name"))
      (hurl : IsOptionalText (members.get? "url"))
      (hchildren : ∀ entry ∈ entries, IsNode entry.2) : IsNode (.object members)

/-- A value is valid as a document: an object whose children, if it has any, are valid. -/
def IsDocument (document : Json) : Prop :=
  ∃ members, document = .object members ∧ IsOptionalText (Table.get? members "name") ∧
    IsOptionalText (Table.get? members "url") ∧
    (Table.get? members "apis" = none ∨
      ∃ entries, Table.get? members "apis" = some (.object entries) ∧
        ∀ entry ∈ entries, IsNode entry.2)

theorem exists_holdsText_iff {member : Option Json} :
    (∃ text, HoldsText member text) ↔ IsOptionalText member := by
  constructor
  · rintro ⟨text, htext⟩
    cases htext with
    | absent => exact .inl rfl
    | null => exact .inr (.inl rfl)
    | text content => exact .inr (.inr ⟨content, rfl⟩)
  · rintro (rfl | rfl | ⟨content, rfl⟩)
    · exact ⟨none, .absent⟩
    · exact ⟨none, .null⟩
    · exact ⟨some content.marked, .text content⟩

theorem exists_holdsFields_iff {member : Option Json} :
    (∃ fields, HoldsFields member fields) ↔ IsOptionalFields member := by
  constructor
  · rintro ⟨fields, hfields⟩
    cases hfields with
    | absent => exact .inl rfl
    | null => exact .inr (.inl rfl)
    | @object entries fields h =>
      refine .inr (.inr ⟨entries, rfl, fun entry hentry => ?_⟩)
      -- every entry has a field at its place, and so a text
      have hmem := List.mem_map_of_mem (f := fun entry => (entry.1.marked, entry.2.text?)) hentry
      rw [h, List.mem_map] at hmem
      obtain ⟨field, -, heq⟩ := hmem
      have htext : entry.2.text? = some field.2 := (Prod.mk.inj heq).2.symm
      cases hvalue : entry.2 with
      | string content => exact ⟨content, rfl⟩
      | _ => simp [hvalue, Json.text?] at htext
  · rintro (rfl | rfl | ⟨entries, rfl, h⟩)
    · exact ⟨none, .absent⟩
    · exact ⟨none, .null⟩
    · refine ⟨some (entries.map fun entry => (entry.1.marked, entry.2.text?.getD "")), .object ?_⟩
      rw [List.map_map]
      refine List.map_congr_left fun entry hentry => ?_
      obtain ⟨content, hcontent⟩ := h entry hentry
      simp [hcontent, Json.text?]

theorem exists_holdsRequest_iff {members : Json.Members} {verb : String} :
    (∃ request : Request, request.verb = verb ∧ HoldsRequest members request) ↔
      AllowsFields members verb := by
  constructor
  · rintro ⟨request, rfl, hrequest⟩
    cases request with
    | get fields => exact .inl ⟨rfl, hrequest.1, exists_holdsFields_iff.1 ⟨fields, hrequest.2⟩⟩
    | post fields =>
      exact .inr ⟨.inl rfl, hrequest.1, exists_holdsFields_iff.1 ⟨fields, hrequest.2⟩⟩
    | put fields =>
      exact .inr ⟨.inr rfl, hrequest.1, exists_holdsFields_iff.1 ⟨fields, hrequest.2⟩⟩
    | custom verb => exact hrequest.elim
  · rintro (⟨rfl, habsent, hfields⟩ | ⟨rfl | rfl, habsent, hfields⟩) <;>
      obtain ⟨fields, hfields⟩ := exists_holdsFields_iff.2 hfields
    · exact ⟨.get fields, rfl, habsent, hfields⟩
    · exact ⟨.post fields, rfl, habsent, hfields⟩
    · exact ⟨.put fields, rfl, habsent, hfields⟩

/-- Members describe an endpoint exactly if their method, fields and address are allowed. -/
theorem exists_describesEndpoint_iff {members : Json.Members} {scope : ScopeId} :
    (∃ endpoint : Endpoint, endpoint.scope = scope ∧ DescribesEndpoint members endpoint) ↔
      ∃ method, members.get? "method" = some (.string method) ∧
        AllowsFields members (Text.upper method.marked) ∧
        IsOptionalText (members.get? "url") := by
  constructor
  · rintro ⟨endpoint, -, ⟨method, hmethod, hverb⟩, hurl, hrequest⟩
    exact ⟨method, hmethod, exists_holdsRequest_iff.1 ⟨_, hverb.symm, hrequest⟩,
      exists_holdsText_iff.1 ⟨_, hurl⟩⟩
  · rintro ⟨method, hmethod, hfields, hurl⟩
    obtain ⟨url, hurl⟩ := exists_holdsText_iff.2 hurl
    obtain ⟨request, hverb, hrequest⟩ := exists_holdsRequest_iff.2 hfields
    exact ⟨⟨url, request, scope⟩, rfl, ⟨method, hmethod, hverb.symm⟩, hurl, hrequest⟩

end Document

/-! ## The tree that a document describes -/

open Document (HoldsText DescribesEndpoint)

mutual

/-- A value describes a node: an endpoint by members without `apis`, and a group by members without
    `method`, from whose `apis` it has its children. The verb of an endpoint is its method in upper
    case, and its fields stand in the order of the value. -/
def Node.IsDescribedBy : Node → Json → Prop
  | .endpoint endpoint, value => ∃ members, value = .object members ∧
      Table.get? members "apis" = none ∧ DescribesEndpoint members endpoint
  | .group name url _ children, value => ∃ members entries, value = .object members ∧
      Table.get? members "method" = none ∧
      Table.get? members "apis" = some (.object entries) ∧
      HoldsText (Table.get? members "name") name ∧ HoldsText (Table.get? members "url") url ∧
      ChildrenDescribedBy children entries
  | .foreign _, _ => False

/-- The entries of an object describe children one by one, each with its key. -/
def ChildrenDescribedBy : List (String × Node) → List (LooseText × Json) → Prop
  | [], [] => True
  | (key, node) :: children, (text, value) :: entries =>
    key = text.marked ∧ node.IsDescribedBy value ∧ ChildrenDescribedBy children entries
  | _, _ => False

end

/-- A document describes a schema. A schema without children may come from one without `apis`. -/
def Schema.IsDescribedBy (schema : Schema) (document : Json) : Prop :=
  ∃ members, document = .object members ∧ HoldsText (Table.get? members "name") schema.name ∧
    HoldsText (Table.get? members "url") schema.url ∧
    ((Table.get? members "apis" = none ∧ schema.children = []) ∨
      ∃ entries, Table.get? members "apis" = some (.object entries) ∧
        ChildrenDescribedBy schema.children entries)

namespace Document

/-! ## What is read is described, and what is described is valid -/

mutual

theorem isDescribedBy_of_readNode {parent : ScopeId} {path : NodePath} {scopes after : Scopes}
    {value : Json} : ∀ node : Node,
    readNode parent path scopes value = .ok (node, after) → node.IsDescribedBy value
  | .endpoint endpoint, h => by
    obtain ⟨members, rfl, ⟨hapis, -, endpoint, heq, -, hdescribes⟩ | ⟨-, _, _, _, _, -, heq, -⟩⟩ :=
      readNode_eq_ok_iff.1 h
    · obtain rfl := Node.endpoint.inj heq
      rw [Node.IsDescribedBy]
      exact ⟨members, rfl, hapis, hdescribes⟩
    · cases heq
  | .group name url scope children, h => by
    obtain ⟨members, rfl, ⟨-, -, _, heq, -⟩ |
        ⟨hmethod, entries, name, url, children', hapis, heq, hname, hurl, hentries⟩⟩ :=
      readNode_eq_ok_iff.1 h
    · cases heq
    · obtain ⟨rfl, rfl, -, rfl⟩ := Node.group.inj heq
      rw [Node.IsDescribedBy]
      exact ⟨members, entries, rfl, hmethod, hapis, hname, hurl,
        childrenDescribedBy_of_readEntries children hentries⟩
  | .foreign kind, h => by
    obtain ⟨_, rfl, ⟨-, -, _, heq, -⟩ | ⟨-, _, _, _, _, -, heq, -⟩⟩ := readNode_eq_ok_iff.1 h
    · cases heq
    · cases heq

theorem childrenDescribedBy_of_readEntries {scope : ScopeId} {path : NodePath}
    {scopes after : Scopes} {entries : List (LooseText × Json)} :
    ∀ children : List (String × Node),
    readEntries scope path scopes entries = .ok (children, after) →
    ChildrenDescribedBy children entries
  | [], h => by
    cases entries with
    | nil => trivial
    | cons entry entries =>
      obtain ⟨_, _, _, -, -, heq⟩ := readEntries_cons_eq_ok_iff.1 h
      cases heq
  | (key, node) :: children, h => by
    cases entries with
    | nil =>
      obtain ⟨heq, -⟩ := readEntries_nil_eq_ok_iff.1 h
      cases heq
    | cons entry entries =>
      obtain ⟨node', within, more, hnode, hmore, heq⟩ := readEntries_cons_eq_ok_iff.1 h
      obtain ⟨hchild, rfl⟩ := List.cons.inj heq
      obtain ⟨rfl, rfl⟩ := Prod.mk.inj hchild
      exact ⟨rfl, isDescribedBy_of_readNode node hnode,
        childrenDescribedBy_of_readEntries children hmore⟩

end

mutual

theorem isNode_of_isDescribedBy {value : Json} : ∀ node : Node,
    node.IsDescribedBy value → IsNode value
  | .endpoint endpoint, h => by
    rw [Node.IsDescribedBy] at h
    obtain ⟨members, rfl, hapis, hdescribes⟩ := h
    obtain ⟨method, hmethod, hfields, hurl⟩ :=
      exists_describesEndpoint_iff.1 ⟨endpoint, rfl, hdescribes⟩
    exact .endpoint hapis hmethod hfields hurl
  | .group name url scope children, h => by
    rw [Node.IsDescribedBy] at h
    obtain ⟨members, entries, rfl, hmethod, hapis, hname, hurl, hchildren⟩ := h
    exact .group hmethod hapis (exists_holdsText_iff.1 ⟨name, hname⟩)
      (exists_holdsText_iff.1 ⟨url, hurl⟩) (isNode_of_childrenDescribedBy children hchildren)
  | .foreign kind, h => by
    rw [Node.IsDescribedBy] at h
    exact h.elim

theorem isNode_of_childrenDescribedBy {entries : List (LooseText × Json)} :
    ∀ children : List (String × Node), ChildrenDescribedBy children entries →
    ∀ entry ∈ entries, IsNode entry.2
  | [], h => by
    cases entries with
    | nil => simp
    | cons entry entries => exact h.elim
  | (key, node) :: children, h => by
    cases entries with
    | nil => simp
    | cons entry entries =>
      obtain ⟨-, hnode, hchildren⟩ := h
      intro other hother
      rcases List.mem_cons.1 hother with rfl | hother
      · exact isNode_of_isDescribedBy node hnode
      · exact isNode_of_childrenDescribedBy children hchildren other hother

end

theorem isDescribedBy_of_read {scopes after : Scopes} {document : Json} {schema : Schema}
    (h : read scopes document = .ok (schema, after)) : schema.IsDescribedBy document := by
  obtain ⟨members, rfl, -, hname, hurl, hchildren⟩ := read_eq_ok_iff.1 h
  refine ⟨members, rfl, hname, hurl, ?_⟩
  rcases hchildren with ⟨hapis, hnil, -⟩ | ⟨entries, hapis, hentries⟩
  · exact .inl ⟨hapis, hnil⟩
  · exact .inr ⟨entries, hapis, childrenDescribedBy_of_readEntries _ hentries⟩

theorem isDocument_of_isDescribedBy {document : Json} {schema : Schema}
    (h : schema.IsDescribedBy document) : IsDocument document := by
  obtain ⟨members, rfl, hname, hurl, hchildren⟩ := h
  refine ⟨members, rfl, exists_holdsText_iff.1 ⟨_, hname⟩, exists_holdsText_iff.1 ⟨_, hurl⟩, ?_⟩
  rcases hchildren with ⟨hapis, -⟩ | ⟨entries, hapis, hchildren⟩
  · exact .inl hapis
  · exact .inr ⟨entries, hapis, isNode_of_childrenDescribedBy _ hchildren⟩

/-! ## What is valid is read -/

/-- Children are read if each of them is, wherever it stands. -/
theorem exists_readEntries {entries : List (LooseText × Json)}
    (h : ∀ entry ∈ entries, ∀ (parent : ScopeId) (path : NodePath) (scopes : Scopes),
      ∃ node after, readNode parent path scopes entry.2 = .ok (node, after))
    (scope : ScopeId) (path : NodePath) (scopes : Scopes) :
    ∃ children after, readEntries scope path scopes entries = .ok (children, after) := by
  induction entries generalizing scopes with
  | nil => exact ⟨[], scopes, readEntries_nil_eq_ok_iff.2 ⟨rfl, rfl⟩⟩
  | cons entry entries ih =>
    obtain ⟨node, within, hnode⟩ :=
      h entry (List.mem_cons_self ..) scope (path ++ [entry.1.marked]) scopes
    obtain ⟨children, after, hchildren⟩ :=
      ih (fun other hother => h other (List.mem_cons_of_mem _ hother)) within
    exact ⟨_, after, readEntries_cons_eq_ok_iff.2 ⟨node, within, children, hnode, hchildren, rfl⟩⟩

/-- A valid value is read as a node, under any path and with any scopes. -/
theorem IsNode.exists_readNode {value : Json} (h : IsNode value) :
    ∀ (parent : ScopeId) (path : NodePath) (scopes : Scopes),
      ∃ node after, readNode parent path scopes value = .ok (node, after) := by
  induction h with
  | endpoint hapis hmethod hfields hurl =>
    intro parent path scopes
    obtain ⟨endpoint, hscope, hdescribes⟩ :=
      exists_describesEndpoint_iff.2 ⟨_, hmethod, hfields, hurl⟩
    exact ⟨_, _, readNode_eq_ok_iff.2 ⟨_, rfl, .inl ⟨hapis, rfl, endpoint, rfl, hscope,
      hdescribes⟩⟩⟩
  | group hmethod hapis hname hurl _ ih =>
    intro parent path scopes
    obtain ⟨name, hname⟩ := exists_holdsText_iff.2 hname
    obtain ⟨url, hurl⟩ := exists_holdsText_iff.2 hurl
    obtain ⟨children, after, hentries⟩ := exists_readEntries ih
      (scopes.createWithin parent []).1 path (scopes.createWithin parent []).2
    exact ⟨_, after, readNode_eq_ok_iff.2 ⟨_, rfl, .inr ⟨hmethod, _, name, url, children, hapis,
      rfl, hname, hurl, hentries⟩⟩⟩

theorem IsDocument.exists_read {document : Json} (h : IsDocument document) (scopes : Scopes) :
    ∃ schema after, read scopes document = .ok (schema, after) := by
  obtain ⟨members, rfl, hname, hurl, hchildren⟩ := h
  obtain ⟨name, hname⟩ := exists_holdsText_iff.2 hname
  obtain ⟨url, hurl⟩ := exists_holdsText_iff.2 hurl
  rcases hchildren with hapis | ⟨entries, hapis, hentries⟩
  · exact ⟨⟨name, url, _, []⟩, _, read_eq_ok_iff.2 ⟨members, rfl, rfl, hname, hurl,
      .inl ⟨hapis, rfl, rfl⟩⟩⟩
  · obtain ⟨children, after, hread⟩ := exists_readEntries
      (fun entry hentry => (hentries entry hentry).exists_readNode)
      (scopes.create [] none).1 [] (scopes.create [] none).2
    exact ⟨⟨name, url, _, children⟩, after, read_eq_ok_iff.2 ⟨members, rfl, rfl, hname, hurl,
      .inr ⟨entries, hapis, hread⟩⟩⟩

/-! ## Both directions -/

/-- **The reader accepts exactly the documents**, refuses every other value with an error, and the
    schema that it reads is the one that the document describes. -/
theorem read_iff_isDocument (scopes : Scopes) (document : Json) :
    ((∃ schema after, read scopes document = .ok (schema, after)) ↔ IsDocument document) ∧
    (¬IsDocument document → ∃ e, read scopes document = .error e) ∧
    ∀ schema after, read scopes document = .ok (schema, after) →
      schema.IsDescribedBy document := by
  have hiff : (∃ schema after, read scopes document = .ok (schema, after)) ↔
      IsDocument document :=
    ⟨fun ⟨_, _, h⟩ => isDocument_of_isDescribedBy (isDescribedBy_of_read h),
      fun h => h.exists_read scopes⟩
  refine ⟨hiff, fun hinvalid => ?_, fun _ _ h => isDescribedBy_of_read h⟩
  cases hread : read scopes document with
  | error e => exact ⟨e, rfl⟩
  | ok result => exact absurd (hiff.1 ⟨result.1, result.2, hread⟩) hinvalid

end Document

end ApiScribe
