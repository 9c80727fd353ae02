import ApiScribe.Document.Reader
import ApiScribe.Proofs.Except

set_option autoImplicit false

/-! # What reading a document takes

Reading a node succeeds only if every check on it and on all below it does. Each function of the
reader has one lemma here that says when it succeeds and with what, by lookups in the members of an
object and by the successes of the functions that it calls. The search for the children among the
members, which the reader makes by its own recursion, is a lookup like the others
(`readChildren?_eq`). -/

namespace ApiScribe.Document

/-! ## Fields of a node -/

/-- What stands under a field is an optional text: nothing and null are none. -/
inductive HoldsText : Option Json → Option String → Prop
  | absent : HoldsText none none
  | null : HoldsText (some .null) none
  | text (content : LooseText) : HoldsText (some (.string content)) (some content.marked)

/-- What stands under a field is an optional object of texts: nothing and null are none, and an
    object gives its keys and texts in order. -/
inductive HoldsFields : Option Json → Option Fields → Prop
  | absent : HoldsFields none none
  | null : HoldsFields (some .null) none
  | object {entries : List (LooseText × Json)} {fields : Fields}
      (h : entries.map (fun entry => (entry.1.marked, entry.2.text?)) =
        fields.map fun field => (field.1, some field.2)) :
      HoldsFields (some (.object entries)) (some fields)

theorem optionalText_eq_ok_iff {members : Json.Members} {field : String} {path : NodePath}
    {text : Option String} :
    optionalText members field path = .ok text ↔ HoldsText (members.get? field) text := by
  unfold optionalText
  constructor
  · intro h
    split at h
    · next hmember =>
      obtain rfl := Except.ok.inj h
      rw [hmember]
      exact .absent
    · next hmember =>
      obtain rfl := Except.ok.inj h
      rw [hmember]
      exact .null
    · next content hmember =>
      obtain rfl := Except.ok.inj h
      rw [hmember]
      exact .text content
    · cases h
  · intro h
    generalize Table.get? members field = member at h ⊢
    cases h <;> rfl

theorem fieldTexts?_eq_some_iff {entries : List (LooseText × Json)} {fields : Fields} :
    fieldTexts? entries = some fields ↔
      entries.map (fun entry => (entry.1.marked, entry.2.text?)) =
        fields.map fun field => (field.1, some field.2) := by
  induction entries generalizing fields with
  | nil => cases fields <;> simp [fieldTexts?]
  | cons entry rest ih =>
    obtain ⟨key, value⟩ := entry
    cases value with
    | string content =>
      cases fields with
      | nil => simp [fieldTexts?]
      | cons field fields =>
        obtain ⟨name, type⟩ := field
        simp only [fieldTexts?, Option.map_eq_some_iff, ih, List.map_cons, Json.text?,
          List.cons.injEq, Prod.mk.injEq, Option.some.injEq]
        constructor
        · rintro ⟨more, hmore, ⟨rfl, rfl⟩, rfl⟩
          exact ⟨⟨rfl, rfl⟩, hmore⟩
        · rintro ⟨⟨rfl, rfl⟩, hmore⟩
          exact ⟨fields, hmore, ⟨rfl, rfl⟩, rfl⟩
    | _ => cases fields <;> simp [fieldTexts?, Json.text?]

theorem optionalFields_eq_ok_iff {members : Json.Members} {field : String} {path : NodePath}
    {fields : Option Fields} :
    optionalFields members field path = .ok fields ↔
      HoldsFields (members.get? field) fields := by
  unfold optionalFields
  constructor
  · intro h
    split at h
    · next hmember =>
      obtain rfl := Except.ok.inj h
      rw [hmember]
      exact .absent
    · next hmember =>
      obtain rfl := Except.ok.inj h
      rw [hmember]
      exact .null
    · next entries hmember =>
      split at h
      · next texts htexts =>
        obtain rfl := Except.ok.inj h
        rw [hmember]
        exact .object (fieldTexts?_eq_some_iff.1 htexts)
      · cases h
    · cases h
  · intro h
    generalize Table.get? members field = member at h ⊢
    cases h with
    | absent => rfl
    | null => rfl
    | object htexts => simp only [fieldTexts?_eq_some_iff.2 htexts]

/-! ## Endpoints -/

/-- The members of a node give a request its fields, and nothing stands where the fields of the
    other kind of request do. -/
def HoldsRequest (members : Json.Members) : Request → Prop
  | .get fields => members.get? "data" = none ∧ HoldsFields (members.get? "params") fields
  | .post fields => members.get? "params" = none ∧ HoldsFields (members.get? "data") fields
  | .put fields => members.get? "params" = none ∧ HoldsFields (members.get? "data") fields
  | .custom _ => False

/-- The members of a node describe an endpoint: the text under `method` is its verb in any case. -/
structure DescribesEndpoint (members : Json.Members) (endpoint : Endpoint) : Prop where
  method : ∃ text, members.get? "method" = some (.string text) ∧
    Text.upper text.marked = endpoint.request.verb
  url : HoldsText (members.get? "url") endpoint.url
  request : HoldsRequest members endpoint.request

/-- The text of a verb. -/
def Verb.text : Verb → String
  | .get => "GET"
  | .post => "POST"
  | .put => "PUT"

theorem Verb.ofText?_eq_some_iff {text : String} {verb : Verb} :
    Verb.ofText? text = some verb ↔ Text.upper text = verb.text := by
  unfold Verb.ofText?
  dsimp only
  generalize Text.upper text = upper
  constructor
  · intro h
    split at h
    · next hget => obtain rfl := Option.some.inj h; exact hget
    split at h
    · next hpost => obtain rfl := Option.some.inj h; exact hpost
    split at h
    · next hput => obtain rfl := Option.some.inj h; exact hput
    · cases h
  · rintro rfl
    cases verb <;> rfl

theorem verb?_eq_some_iff {members : Json.Members} {verb : Verb} :
    verb? members = some verb ↔
      ∃ text, members.get? "method" = some (.string text) ∧ Text.upper text.marked = verb.text := by
  unfold verb?
  constructor
  · intro h
    split at h
    · next text hmethod => exact ⟨text, hmethod, Verb.ofText?_eq_some_iff.1 h⟩
    · cases h
  · rintro ⟨text, hmethod, hverb⟩
    rw [hmethod]
    exact Verb.ofText?_eq_some_iff.2 hverb

theorem contains_eq_false_iff {members : Json.Members} {key : LooseText} :
    Table.contains members key = false ↔ Table.get? members key = none := by
  simp [Table.contains]

/-- Fields beside a companion that has to be absent. -/
theorem guarded_map_eq_ok_iff {members : Json.Members} {field companion : String}
    {path : NodePath} {make : Option Fields → Request} {error : Error} {request : Request} :
    (if Table.contains members companion then .error error
      else make <$> optionalFields members field path) = .ok request ↔
      ∃ fields, (members.get? companion = none ∧ HoldsFields (members.get? field) fields) ∧
        request = make fields := by
  cases hcompanion : Table.contains members companion with
  | true =>
    have hpresent : members.get? companion ≠ none := by
      intro habsent
      rw [contains_eq_false_iff.2 habsent] at hcompanion
      cases hcompanion
    simp [hpresent]
  | false =>
    have habsent := contains_eq_false_iff.1 hcompanion
    rw [if_neg (by decide), map_eq_ok]
    constructor
    · rintro ⟨fields, hfields, rfl⟩
      exact ⟨fields, ⟨habsent, optionalFields_eq_ok_iff.1 hfields⟩, rfl⟩
    · rintro ⟨fields, ⟨-, hfields⟩, rfl⟩
      exact ⟨fields, optionalFields_eq_ok_iff.2 hfields, rfl⟩

theorem readRequest_eq_ok_iff {members : Json.Members} {path : NodePath} {verb : Verb}
    {request : Request} :
    readRequest members path verb = .ok request ↔
      request.verb = verb.text ∧ HoldsRequest members request := by
  cases verb <;> rw [readRequest, guarded_map_eq_ok_iff] <;> constructor
  case get.mp | post.mp | put.mp =>
    rintro ⟨fields, hfields, rfl⟩
    exact ⟨rfl, hfields⟩
  all_goals
    rintro ⟨hverb, hrequest⟩
    cases request with
    | custom verb => exact hrequest.elim
    | _ fields => simp_all [Request.verb, Verb.text, HoldsRequest]

/-- **An endpoint** is read from the members that describe it, and from no others. -/
theorem readEndpoint_eq_ok_iff {members : Json.Members} {scope : ScopeId} {path : NodePath}
    {endpoint : Endpoint} :
    readEndpoint members scope path = .ok endpoint ↔
      endpoint.scope = scope ∧ DescribesEndpoint members endpoint := by
  unfold readEndpoint
  constructor
  · intro h
    split at h
    · cases h
    next verb hverb =>
    obtain ⟨url, hurl, h⟩ := bind_eq_ok.1 h
    obtain ⟨request, hrequest, h⟩ := bind_eq_ok.1 h
    obtain rfl := Except.ok.inj h
    obtain ⟨hname, hholds⟩ := readRequest_eq_ok_iff.1 hrequest
    obtain ⟨text, hmethod, hupper⟩ := verb?_eq_some_iff.1 hverb
    exact ⟨rfl, ⟨text, hmethod, hupper.trans hname.symm⟩, optionalText_eq_ok_iff.1 hurl, hholds⟩
  · rintro ⟨rfl, ⟨text, hmethod, hupper⟩, hurl, hrequest⟩
    obtain ⟨verb, hname⟩ : ∃ verb : Verb, endpoint.request.verb = verb.text := by
      cases hkind : endpoint.request with
      | get fields => exact ⟨.get, rfl⟩
      | post fields => exact ⟨.post, rfl⟩
      | put fields => exact ⟨.put, rfl⟩
      | custom verb => exact (hkind ▸ hrequest : HoldsRequest members (.custom verb)).elim
    have hverb : verb? members = some verb :=
      verb?_eq_some_iff.2 ⟨text, hmethod, hupper.trans hname⟩
    rw [hverb]
    exact bind_eq_ok.2 ⟨_, optionalText_eq_ok_iff.2 hurl,
      bind_eq_ok.2 ⟨_, readRequest_eq_ok_iff.2 ⟨hname, hrequest⟩, rfl⟩⟩

/-! ## Nodes -/

theorem readChildren?_eq (scope : ScopeId) (path : NodePath) (scopes : Scopes)
    (members : Json.Members) :
    readChildren? scope path scopes members =
      (members.get? "apis").map (readChildren scope path scopes) := by
  induction members with
  | nil => simp [readChildren?, Table.get?]
  | cons member rest ih =>
    obtain ⟨key, value⟩ := member
    rw [readChildren?, Table.get?]
    split
    · rfl
    · exact ih

theorem readChildren_eq_ok_iff {scope : ScopeId} {path : NodePath} {scopes after : Scopes}
    {value : Json} {children : List (String × Node)} :
    readChildren scope path scopes value = .ok (children, after) ↔
      ∃ entries, value = .object entries ∧
        readEntries scope path scopes entries = .ok (children, after) := by
  cases value <;> simp [readChildren]

/-- **A node** is read as an endpoint if nothing stands under `apis`, and as a group if an object
    does and nothing under `method`. Its scope is new. -/
theorem readNode_eq_ok_iff {parent : ScopeId} {path : NodePath} {scopes after : Scopes}
    {value : Json} {node : Node} :
    readNode parent path scopes value = .ok (node, after) ↔
      ∃ members, value = .object members ∧
        ((Table.get? members "apis" = none ∧ after = (scopes.createWithin parent []).2 ∧
            ∃ endpoint, node = .endpoint endpoint ∧
              endpoint.scope = (scopes.createWithin parent []).1 ∧
              DescribesEndpoint members endpoint) ∨
          (Table.get? members "method" = none ∧
            ∃ entries name url children, Table.get? members "apis" = some (.object entries) ∧
              node = .group name url (scopes.createWithin parent []).1 children ∧
              HoldsText (Table.get? members "name") name ∧
              HoldsText (Table.get? members "url") url ∧
              readEntries (scopes.createWithin parent []).1 path (scopes.createWithin parent []).2
                entries = .ok (children, after))) := by
  cases value with
  | object members =>
    rw [readNode]
    dsimp only
    rw [readChildren?_eq]
    cases hapis : Table.get? members "apis" with
    | none =>
      have hcontains : Table.contains members "apis" = false := contains_eq_false_iff.2 hapis
      simp only [hcontains, Bool.false_and, Bool.false_eq_true, ↓reduceIte, Option.map_none]
      constructor
      · intro h
        obtain ⟨endpoint, hendpoint, h⟩ := bind_eq_ok.1 h
        obtain ⟨rfl, rfl⟩ := Prod.mk.inj (Except.ok.inj h)
        obtain ⟨hscope, hdescribes⟩ := readEndpoint_eq_ok_iff.1 hendpoint
        exact ⟨members, rfl, .inl ⟨hapis, rfl, endpoint, rfl, hscope, hdescribes⟩⟩
      · rintro ⟨members', hmembers, h⟩
        obtain rfl := Json.object.inj hmembers
        rcases h with ⟨-, rfl, endpoint, rfl, hscope, hdescribes⟩ | ⟨-, _, _, _, _, hsome, -⟩
        · exact bind_eq_ok.2 ⟨endpoint, readEndpoint_eq_ok_iff.2 ⟨hscope, hdescribes⟩, rfl⟩
        · rw [hapis] at hsome
          cases hsome
    | some inner =>
      have hcontains : Table.contains members "apis" = true := by simp [Table.contains, hapis]
      simp only [hcontains, Bool.true_and, Option.map_some]
      constructor
      · intro h
        split at h
        · cases h
        next hmethod =>
        obtain ⟨name, hname, h⟩ := bind_eq_ok.1 h
        obtain ⟨url, hurl, h⟩ := bind_eq_ok.1 h
        obtain ⟨⟨children, last⟩, hchildren, h⟩ := bind_eq_ok.1 h
        obtain ⟨rfl, rfl⟩ := Prod.mk.inj (Except.ok.inj h)
        obtain ⟨entries, rfl, hentries⟩ := readChildren_eq_ok_iff.1 hchildren
        have habsent := contains_eq_false_iff.1 (Bool.eq_false_iff.2 hmethod)
        exact ⟨members, rfl, .inr ⟨habsent, entries, name, url, children, hapis, rfl,
          optionalText_eq_ok_iff.1 hname, optionalText_eq_ok_iff.1 hurl, hentries⟩⟩
      · rintro ⟨members', hmembers, h⟩
        obtain rfl := Json.object.inj hmembers
        rcases h with ⟨hnone, -⟩ |
          ⟨hmethod, entries, name, url, children, hsome, rfl, hname, hurl, hentries⟩
        · rw [hapis] at hnone
          cases hnone
        · obtain rfl := Option.some.inj (hapis.symm.trans hsome)
          rw [if_neg (by simp [contains_eq_false_iff.2 hmethod])]
          exact bind_eq_ok.2 ⟨name, optionalText_eq_ok_iff.2 hname, bind_eq_ok.2 ⟨url,
            optionalText_eq_ok_iff.2 hurl, bind_eq_ok.2 ⟨(children, after),
              readChildren_eq_ok_iff.2 ⟨entries, rfl, hentries⟩, rfl⟩⟩⟩
  | _ => simp [readNode]

theorem readEntries_nil_eq_ok_iff {scope : ScopeId} {path : NodePath} {scopes after : Scopes}
    {children : List (String × Node)} :
    readEntries scope path scopes [] = .ok (children, after) ↔ children = [] ∧ after = scopes := by
  simp [readEntries, eq_comm]

/-- **Children** are read one after the other, each under the key of its entry. -/
theorem readEntries_cons_eq_ok_iff {scope : ScopeId} {path : NodePath} {scopes after : Scopes}
    {key : LooseText} {value : Json} {entries : List (LooseText × Json)}
    {children : List (String × Node)} :
    readEntries scope path scopes ((key, value) :: entries) = .ok (children, after) ↔
      ∃ node within more, readNode scope (path ++ [key.marked]) scopes value = .ok (node, within) ∧
        readEntries scope path within entries = .ok (more, after) ∧
        children = (key.marked, node) :: more := by
  rw [readEntries]
  constructor
  · intro h
    obtain ⟨⟨node, within⟩, hnode, h⟩ := bind_eq_ok.1 h
    obtain ⟨⟨more, last⟩, hmore, h⟩ := bind_eq_ok.1 h
    obtain ⟨rfl, rfl⟩ := Prod.mk.inj (Except.ok.inj h)
    exact ⟨node, within, more, hnode, hmore, rfl⟩
  · rintro ⟨node, within, more, hnode, hmore, rfl⟩
    exact bind_eq_ok.2 ⟨(node, within), hnode, bind_eq_ok.2 ⟨(more, after), hmore, rfl⟩⟩

/-! ## Documents -/

/-- **A document** is read from an object; its children may be left out. -/
theorem read_eq_ok_iff {scopes after : Scopes} {document : Json} {schema : Schema} :
    read scopes document = .ok (schema, after) ↔
      ∃ members, document = .object members ∧ schema.scope = (scopes.create [] none).1 ∧
        HoldsText (Table.get? members "name") schema.name ∧
        HoldsText (Table.get? members "url") schema.url ∧
        ((Table.get? members "apis" = none ∧ schema.children = [] ∧
            after = (scopes.create [] none).2) ∨
          ∃ entries, Table.get? members "apis" = some (.object entries) ∧
            readEntries (scopes.create [] none).1 [] (scopes.create [] none).2 entries =
              .ok (schema.children, after)) := by
  cases document with
  | object members =>
    rw [read]
    dsimp only
    rw [readChildren?_eq]
    constructor
    · intro h
      obtain ⟨name, hname, h⟩ := bind_eq_ok.1 h
      obtain ⟨url, hurl, h⟩ := bind_eq_ok.1 h
      obtain ⟨⟨children, last⟩, hchildren, h⟩ := bind_eq_ok.1 h
      obtain ⟨rfl, rfl⟩ := Prod.mk.inj (Except.ok.inj h)
      refine ⟨members, rfl, rfl, optionalText_eq_ok_iff.1 hname, optionalText_eq_ok_iff.1 hurl, ?_⟩
      cases hapis : Table.get? members "apis" with
      | none =>
        rw [hapis] at hchildren
        obtain ⟨rfl, rfl⟩ := Prod.mk.inj (Except.ok.inj hchildren)
        exact .inl ⟨rfl, rfl, rfl⟩
      | some inner =>
        rw [hapis] at hchildren
        obtain ⟨entries, rfl, hentries⟩ := readChildren_eq_ok_iff.1 hchildren
        exact .inr ⟨entries, rfl, hentries⟩
    · rintro ⟨members', hmembers, hscope, hname, hurl, hchildren⟩
      obtain rfl := Json.object.inj hmembers
      refine bind_eq_ok.2 ⟨_, optionalText_eq_ok_iff.2 hname, bind_eq_ok.2 ⟨_,
        optionalText_eq_ok_iff.2 hurl, bind_eq_ok.2 ⟨(schema.children, after), ?_, ?_⟩⟩⟩
      · rcases hchildren with ⟨hapis, hnil, rfl⟩ | ⟨entries, hapis, hentries⟩
        · rw [hapis, hnil]
          rfl
        · rw [hapis]
          exact readChildren_eq_ok_iff.2 ⟨entries, rfl, hentries⟩
      · rw [← hscope]
        rfl
  | _ => simp [read]

end ApiScribe.Document
