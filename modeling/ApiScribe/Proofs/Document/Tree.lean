import ApiScribe.Proofs.Document.FirstError

set_option autoImplicit false

/-! # Trees without scopes

Which scopes the nodes of a schema have depends on how many there were before it was read. Nothing
else does (`withoutScopes_eq_of_read`): a value describes one tree at most, up to scopes, so two readings
of it that succeed give the same, and the checks of a document do not ask for scopes, so both
succeed or both fail in the same way. -/

namespace ApiScribe

/-! ## Forgetting scopes -/

mutual

/-- The node with all scopes in it forgotten. -/
def Node.withoutScopes : Node → Node
  | .endpoint endpoint => .endpoint { endpoint with scope := 0 }
  | .group name url _ children => .group name url 0 (childrenWithoutScopes children)
  | .foreign kind => .foreign kind

/-- The children with all scopes in them forgotten. -/
def childrenWithoutScopes : List (String × Node) → List (String × Node)
  | [] => []
  | (key, node) :: rest => (key, node.withoutScopes) :: childrenWithoutScopes rest

end

/-- The schema with all scopes forgotten: its types, keys, names, addresses and fields. -/
def Schema.withoutScopes (schema : Schema) : Schema :=
  { schema with scope := 0, children := childrenWithoutScopes schema.children }

/-! ## A value describes one tree -/

namespace Document

theorem HoldsText.unique {member : Option Json} {a b : Option String} (ha : HoldsText member a)
    (hb : HoldsText member b) : a = b := by
  cases ha <;> cases hb <;> rfl

theorem HoldsFields.unique {member : Option Json} {a b : Option Fields} (ha : HoldsFields member a)
    (hb : HoldsFields member b) : a = b := by
  cases ha with
  | absent =>
    cases hb
    rfl
  | null =>
    cases hb
    rfl
  | object hfields =>
    cases hb with
    | object hfields' =>
      have hinj : ∀ field field' : String × String,
          (field.1, some field.2) = (field'.1, some field'.2) → field = field' := by
        rintro ⟨name, type⟩ ⟨name', type'⟩ h
        simpa using h
      have heq := (List.map_inj_right hinj).1 (hfields.symm.trans hfields')
      rw [heq]

theorem HoldsRequest.unique {members : Json.Members} {a b : Request} (ha : HoldsRequest members a)
    (hb : HoldsRequest members b) (hverb : a.verb = b.verb) : a = b := by
  cases a with
  | custom verb => exact ha.elim
  | get fields =>
    cases b with
    | get fields' => rw [ha.2.unique hb.2]
    | custom verb => exact hb.elim
    | _ => simp [Request.verb] at hverb
  | post fields =>
    cases b with
    | post fields' => rw [ha.2.unique hb.2]
    | custom verb => exact hb.elim
    | _ => simp [Request.verb] at hverb
  | put fields =>
    cases b with
    | put fields' => rw [ha.2.unique hb.2]
    | custom verb => exact hb.elim
    | _ => simp [Request.verb] at hverb

theorem DescribesEndpoint.unique {members : Json.Members} {a b : Endpoint}
    (ha : DescribesEndpoint members a) (hb : DescribesEndpoint members b) :
    a.url = b.url ∧ a.request = b.request := by
  obtain ⟨text, htext, hverb⟩ := ha.method
  obtain ⟨text', htext', hverb'⟩ := hb.method
  rw [htext] at htext'
  obtain rfl := Json.string.inj (Option.some.inj htext')
  exact ⟨ha.url.unique hb.url, ha.request.unique hb.request (hverb.symm.trans hverb')⟩

end Document

mutual

theorem Node.withoutScopes_unique {value : Json} : ∀ a b : Node, a.IsDescribedBy value →
    b.IsDescribedBy value → a.withoutScopes = b.withoutScopes
  | .foreign _, _, ha, _ => by
    rw [Node.IsDescribedBy] at ha
    exact ha.elim
  | .endpoint a, b, ha, hb => by
    rw [Node.IsDescribedBy] at ha
    obtain ⟨members, rfl, hapis, ha⟩ := ha
    obtain ⟨b, rfl, hdescribes⟩ := exists_endpoint_of_isDescribedBy hb hapis
    obtain ⟨hurl, hrequest⟩ := ha.unique hdescribes
    rw [Node.withoutScopes, Node.withoutScopes, hurl, hrequest]
  | .group _ _ _ as, b, ha, hb => by
    rw [Node.IsDescribedBy] at ha
    obtain ⟨members, entries, rfl, -, hapis, hname, hurl, has⟩ := ha
    obtain ⟨name, url, scope, bs, rfl, hname', hurl', hbs⟩ := exists_group_of_isDescribedBy hb hapis
    rw [Node.withoutScopes, Node.withoutScopes, hname.unique hname', hurl.unique hurl',
      childrenWithoutScopes_unique as bs has hbs]

theorem childrenWithoutScopes_unique {entries : List (LooseText × Json)} :
    ∀ as bs : List (String × Node), ChildrenDescribedBy as entries →
    ChildrenDescribedBy bs entries → childrenWithoutScopes as = childrenWithoutScopes bs
  | [], [], _, _ => rfl
  | [], (_, _) :: _, ha, hb => by
    cases entries with
    | nil => exact hb.elim
    | cons entry entries => exact ha.elim
  | (_, _) :: _, [], ha, hb => by
    cases entries with
    | nil => exact ha.elim
    | cons entry entries => exact hb.elim
  | (key, a) :: as, (key', b) :: bs, ha, hb => by
    cases entries with
    | nil => exact ha.elim
    | cons entry entries =>
      obtain ⟨hkey, ha, has⟩ := ha
      obtain ⟨hkey', hb, hbs⟩ := hb
      rw [childrenWithoutScopes, childrenWithoutScopes, hkey, hkey', a.withoutScopes_unique b ha hb,
        childrenWithoutScopes_unique as bs has hbs]

end

/-- Two schemas that a document describes differ in their scopes only. -/
theorem Schema.withoutScopes_unique {a b : Schema} {document : Json} (ha : a.IsDescribedBy document)
    (hb : b.IsDescribedBy document) : a.withoutScopes = b.withoutScopes := by
  obtain ⟨members, rfl, hname, hurl, has⟩ := ha
  obtain ⟨members', hmembers, hname', hurl', hbs⟩ := hb
  obtain rfl := Json.object.inj hmembers
  have hchildren : childrenWithoutScopes a.children = childrenWithoutScopes b.children := by
    rcases has with ⟨hnone, has⟩ | ⟨entries, hapis, has⟩
    · rcases hbs with ⟨-, hbs⟩ | ⟨entries', hapis', -⟩
      · rw [has, hbs]
      · rw [hnone] at hapis'
        cases hapis'
    · rcases hbs with ⟨hnone, -⟩ | ⟨entries', hapis', hbs⟩
      · rw [hnone] at hapis
        cases hapis
      · rw [hapis] at hapis'
        obtain rfl := Json.object.inj (Option.some.inj hapis')
        exact childrenWithoutScopes_unique _ _ has hbs
  rw [Schema.withoutScopes, Schema.withoutScopes, hname.unique hname', hurl.unique hurl', hchildren]

namespace Document

/-! ## Readings with different scopes -/

/-- Whether and why a document is refused does not depend on the scopes there are. -/
theorem read_eq_error_of_read_eq_error {scopes : Scopes} {document : Json} {e : Error}
    (h : read scopes document = .error e) (scopes' : Scopes) : read scopes' document = .error e := by
  have hdecides := decides_read scopes document
  rw [h] at hdecides
  obtain ⟨check, hfirst, rfl⟩ := hdecides
  exact read_of_firstFailing hfirst scopes'

theorem exists_read_of_read {scopes : Scopes} {document : Json} {result : Schema × Scopes}
    (h : read scopes document = .ok result) (scopes' : Scopes) :
    ∃ result', read scopes' document = .ok result' := by
  cases hread : read scopes' document with
  | error e =>
    rw [read_eq_error_of_read_eq_error hread scopes] at h
    cases h
  | ok result' => exact ⟨result', rfl⟩

/-- **Scopes do not matter**: a document gives the same tree whatever scopes there are, up to the
    scopes of the nodes. -/
theorem withoutScopes_eq_of_read {scopes scopes' after after' : Scopes} {document : Json}
    {schema schema' : Schema} (h : read scopes document = .ok (schema, after))
    (h' : read scopes' document = .ok (schema', after')) :
    schema.withoutScopes = schema'.withoutScopes :=
  Schema.withoutScopes_unique (isDescribedBy_of_read h) (isDescribedBy_of_read h')

end Document

end ApiScribe
