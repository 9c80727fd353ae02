import ApiScribe.Delivery
import ApiScribe.Proofs.Client.Walk
import ApiScribe.Proofs.Document.Readable
import ApiScribe.Proofs.Schema.Preorder

set_option autoImplicit false

/-! # Schemas without a client

A foreign node among the children of a container ends the walk, however much of the module was there
by then. The walk is compared with the list of all nodes in pre-order: it fails exactly if some node
of the list is foreign, and with the first one (`visitAll_eq_error_iff`).

The text is handed over after the walk, so a walk that fails leaves the receiver as it was, and one
that does not hands over the whole text once (`deliver_stops_at_firstForeign`). -/

namespace ApiScribe.Client

/-! ## The walk and the list -/

/-- What keeps a node under a key from becoming part of a client. -/
def unsupported? : String × Node → Option Unsupported
  | (key, .foreign kind) => some ⟨key, kind⟩
  | _ => none

theorem unsupported?_eq_some_iff {entry : String × Node} {e : Unsupported} :
    unsupported? entry = some e ↔ entry = (e.key, .foreign e.kind) := by
  obtain ⟨key, node⟩ := entry
  obtain ⟨key', kind'⟩ := e
  cases node <;> simp [unsupported?]

theorem unsupported?_eq_none_iff {entry : String × Node} :
    unsupported? entry = none ↔ entry.2.isForeign = false := by
  obtain ⟨key, node⟩ := entry
  cases node <;> simp [unsupported?, Node.isForeign]

mutual

/-- A visit fails with the first node in the list that is foreign, whatever the draft before it. -/
theorem visit_eq_error_iff (options : Options) (owner : Nat) (key : String) :
    ∀ (node : Node) (draft : Draft) (e : Unsupported),
    visit options owner key node draft = .error e ↔
      (node.preorder key).findSome? unsupported? = some e
  | .endpoint endpoint, draft, e => by simp [visit, Node.preorder, unsupported?]
  | .foreign kind, draft, e => by simp [visit, Node.preorder, unsupported?]
  | .group name url scope children, draft, e => by
    rw [visit, Node.preorder, List.findSome?_cons]
    exact visitAll_eq_error_iff options _ children _ e

/-- A visit to children fails with the first node among them and in them that is foreign. -/
theorem visitAll_eq_error_iff (options : Options) (owner : Nat) :
    ∀ (children : List (String × Node)) (draft : Draft) (e : Unsupported),
    visitAll options owner children draft = .error e ↔
      (preorderBelow children).findSome? unsupported? = some e
  | [], draft, e => by simp [visitAll, preorderBelow]
  | (key, node) :: rest, draft, e => by
    have hnode := visit_eq_error_iff options owner key node draft
    rw [visitAll, preorderBelow, List.findSome?_append]
    cases hvisit : visit options owner key node draft with
    | error first =>
      -- the rest is not visited, and the first foreign node of the list is in this child
      rw [(hnode first).1 hvisit]
      simp
    | ok visited =>
      have hnone : (node.preorder key).findSome? unsupported? = none := by
        refine Option.eq_none_iff_forall_ne_some.2 ?_
        intro first hfirst
        rw [(hnode first).2 hfirst] at hvisit
        cases hvisit
      rw [hnone, Option.none_or]
      exact visitAll_eq_error_iff options owner rest visited e

end

theorem source_eq_error_iff_findSome? (options : Options) (schema : Schema) (e : Unsupported) :
    source options schema = .error e ↔
      (preorderBelow schema.children).findSome? unsupported? = some e := by
  let root := (Draft.mk [] []).openClass (options.rootClassName schema) true
  rw [← visitAll_eq_error_iff options 0 schema.children root e, source, draft]
  cases visitAll options 0 schema.children root <;> simp

/-- The text of a client is not written exactly if the list has a foreign node, and the error is
    about the first one. -/
theorem source_eq_error_iff (options : Options) (schema : Schema) (e : Unsupported) :
    source options schema = .error e ↔
      ∃ before after, preorderBelow schema.children = before ++ (e.key, .foreign e.kind) :: after ∧
        ∀ entry ∈ before, entry.2.isForeign = false := by
  rw [source_eq_error_iff_findSome?, List.findSome?_eq_some_iff]
  simp only [unsupported?_eq_some_iff, unsupported?_eq_none_iff]
  constructor
  · rintro ⟨before, entry, after, hsplit, rfl, hbefore⟩
    exact ⟨before, after, hsplit, hbefore⟩
  · rintro ⟨before, after, hsplit, hbefore⟩
    exact ⟨before, _, after, hsplit, rfl, hbefore⟩

theorem exists_source_eq_error_iff (options : Options) (schema : Schema) :
    (∃ e, source options schema = .error e) ↔
      ∃ container ∈ schema.branches, ∃ child ∈ container.children, child.2.isForeign = true := by
  constructor
  · rintro ⟨e, he⟩
    obtain ⟨before, after, hsplit, -⟩ := (source_eq_error_iff options schema e).1 he
    have hmem : (e.key, Node.foreign e.kind) ∈ preorderBelow schema.children := by simp [hsplit]
    obtain ⟨container, hcontainer, hchild⟩ := Schema.mem_preorder_iff.1 hmem
    exact ⟨container, hcontainer, _, hchild, rfl⟩
  · rintro ⟨container, hcontainer, child, hchild, hforeign⟩
    have hmem := Schema.mem_preorder_iff.2 ⟨container, hcontainer, hchild⟩
    cases hfound : (preorderBelow schema.children).findSome? unsupported? with
    | some e => exact ⟨e, (source_eq_error_iff_findSome? options schema e).2 hfound⟩
    | none =>
      have hknown := unsupported?_eq_none_iff.1 (List.findSome?_eq_none_iff.1 hfound child hmem)
      rw [hforeign] at hknown
      cases hknown

/-! ## Delivery -/

theorem deliver_fst {σ : Type} (receive : σ → String → σ) (options : Options) (schema : Schema)
    (receiver : σ) : (deliver receive options schema receiver).1 = source options schema := by
  unfold deliver
  cases source options schema <;> rfl

/-- **A client is delivered as a whole or not at all.** Generation fails exactly if some container
    holds a foreign node, with the key and the kind of the first one in pre-order, and the receiver
    stays as it was. Otherwise the receiver gets the source text, once; a place in memory then holds
    it. A schema from a document always has a client. -/
theorem deliver_stops_at_firstForeign {σ : Type} (receive : σ → String → σ) (options : Options)
    (schema : Schema) (receiver : σ) :
    ((∃ e, (deliver receive options schema receiver).1 = .error e) ↔
      ∃ container ∈ schema.branches, ∃ child ∈ container.children, child.2.isForeign = true) ∧
    (∀ e, (deliver receive options schema receiver).1 = .error e ↔
      ∃ before after, preorderBelow schema.children = before ++ (e.key, .foreign e.kind) :: after ∧
        ∀ entry ∈ before, entry.2.isForeign = false) ∧
    (∀ e, (deliver receive options schema receiver).1 = .error e →
      (deliver receive options schema receiver).2 = receiver ∧
      e.message = "Unsupported schema node for " ++ Text.printedMarked e.key ++ ": " ++ e.kind.label) ∧
    (schema.AllKnown → ∃ text events, source options schema = .ok (text, events) ∧
      deliver receive options schema receiver = (.ok (text, events), receive receiver text) ∧
      ∀ inbox, publish options schema inbox = (.ok (text, events), ⟨some text⟩)) ∧
    ∀ document scopes scopes', Document.read scopes document = .ok (schema, scopes') →
      ∃ client, (deliver receive options schema receiver).1 = .ok client := by
  rw [deliver_fst]
  refine ⟨exists_source_eq_error_iff options schema, source_eq_error_iff options schema, ?_, ?_, ?_⟩
  · intro e he
    refine ⟨?_, rfl⟩
    rw [deliver, he]
  · intro hknown
    obtain ⟨events, hsource⟩ := source_eq_ok options hknown
    refine ⟨_, events, hsource, ?_, fun inbox => ?_⟩
    · rw [deliver, hsource]
    · rw [publish, deliver, hsource]
      rfl
  · intro document scopes scopes' hread
    obtain ⟨events, hsource⟩ := source_eq_ok options (Document.allKnown_of_read hread)
    exact ⟨_, hsource⟩

/-- An endpoint and a group with an endpoint, and further nodes both in the group and behind it. -/
def petsWith (strays : List (String × Node)) : Schema where
  name := none
  url := none
  scope := 0
  children :=
    ("find", .endpoint ⟨some "/find", .get none, 1⟩) ::
    ("pets", .group none none 2 (("add", .endpoint ⟨none, .post none, 3⟩) :: strays)) :: strays

/-- A scope, and a schema that stands behind it. -/
def strays : List (String × Node) := [("it's", .foreign .scope), ("late", .foreign .schema)]

/-- The first stray node is in the group, although the group stands before one of the root. A list
    of texts keeps all that it receives. -/
theorem deliver_stops_at_firstForeign_strays :
    deliver (fun texts text => texts ++ [text]) {} (petsWith strays) ["old"] =
      (.error ⟨"it's", .scope⟩, ["old"]) ∧
    Unsupported.message ⟨"it's", .scope⟩ = "Unsupported schema node for \"it's\": Context" ∧
    (petsWith []).AllKnown ∧ ∃ text events,
      deliver (fun texts text => texts ++ [text]) {} (petsWith []) ["old"] =
        (.ok (text, events), ["old", text]) := by
  have hknown : (petsWith []).AllKnown := by decide
  obtain ⟨-, hfirst, hstays, -, -⟩ := deliver_stops_at_firstForeign
    (fun texts text => texts ++ [text]) {} (petsWith strays) ["old"]
  obtain ⟨-, -, -, hwhole, -⟩ := deliver_stops_at_firstForeign
    (fun texts text => texts ++ [text]) {} (petsWith []) ["old"]
  let nodes := preorderBelow (petsWith strays).children
  have hbefore : ∀ entry ∈ nodes.take 3, entry.2.isForeign = false := by decide
  have herror := (hfirst ⟨"it's", .scope⟩).2 ⟨nodes.take 3, nodes.drop 4, rfl, hbefore⟩
  obtain ⟨text, events, -, hdelivered, -⟩ := hwhole hknown
  exact ⟨Prod.ext herror (hstays _ herror).1, by decide, hknown, text, events, hdelivered⟩

end ApiScribe.Client
