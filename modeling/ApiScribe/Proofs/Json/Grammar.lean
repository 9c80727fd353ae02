import ApiScribe.Json.Reader
import ApiScribe.Proofs.Except

set_option autoImplicit false

/-! # The grammar of JSON texts

The reader bounds its recursion by fuel. `ValueAt`, `ItemsAt` and `MembersAt` say without any fuel
which value stands at the start of a text and what is behind it, by one constructor for each form
that a value, a list of items or a list of members can take. The reader finds nothing else (`sound`),
and it finds what they say with fuel for the characters that it passes (`complete`), so that a whole
text is read exactly as the grammar has it (`readAll_eq_ok_iff`). String literals, numbers and words
are taken as they are read. -/

namespace ApiScribe.Json

/-! ## The grammar -/

mutual

/-- At the start of the text stands the value, and then the rest. -/
inductive ValueAt : List Char → Json → List Char → Prop
  | string {body rest : List Char} {content : LooseText}
      (hread : readText ('"' :: body) 0 [] body = .ok (content, rest)) :
      ValueAt ('"' :: body) (.string content) rest
  | emptyArray {body rest : List Char} (hclosed : skipBlanks body = ']' :: rest) :
      ValueAt ('[' :: body) (.array []) rest
  | array {body rest : List Char} {items : List Json}
      (hitems : ItemsAt (skipBlanks body) items rest) : ValueAt ('[' :: body) (.array items) rest
  | emptyObject {body rest : List Char} (hclosed : skipBlanks body = '\x7d' :: rest) :
      ValueAt ('\x7b' :: body) (.object []) rest
  | object {body rest : List Char} {members : List (LooseText × Json)}
      (hmembers : MembersAt (skipBlanks body) members rest) :
      ValueAt ('\x7b' :: body) (.object (Table.ofList members)) rest
  | scalar {text rest : List Char} {value : Json} (hread : readScalar text = .ok (value, rest)) :
      ValueAt text value rest

/-- At the start of the text stand the items with the closing bracket, and then the rest. -/
inductive ItemsAt : List Char → List Json → List Char → Prop
  | last {text behind rest : List Char} {item : Json} (hitem : ValueAt text item behind)
      (hclosed : skipBlanks behind = ']' :: rest) : ItemsAt text [item] rest
  | more {text behind next rest : List Char} {item : Json} {items : List Json}
      (hitem : ValueAt text item behind) (hcomma : skipBlanks behind = ',' :: next)
      (hitems : ItemsAt (skipBlanks next) items rest) : ItemsAt text (item :: items) rest

/-- At the start of the text stand the members with the closing brace, and then the rest. -/
inductive MembersAt : List Char → List (LooseText × Json) → List Char → Prop
  | last {body behindKey next behind rest : List Char} {key : LooseText} {value : Json}
      (hkey : readText ('"' :: body) 0 [] body = .ok (key, behindKey))
      (hcolon : skipBlanks behindKey = ':' :: next) (hvalue : ValueAt (skipBlanks next) value behind)
      (hclosed : skipBlanks behind = '\x7d' :: rest) : MembersAt ('"' :: body) [(key, value)] rest
  | more {body behindKey next behind further rest : List Char} {key : LooseText} {value : Json}
      {members : List (LooseText × Json)}
      (hkey : readText ('"' :: body) 0 [] body = .ok (key, behindKey))
      (hcolon : skipBlanks behindKey = ':' :: next) (hvalue : ValueAt (skipBlanks next) value behind)
      (hcomma : skipBlanks behind = ',' :: further)
      (hmembers : MembersAt (skipBlanks further) members rest) :
      MembersAt ('"' :: body) ((key, value) :: members) rest

end

/-! ## What is read is in the grammar -/

/-- What is read with this fuel is in the grammar. -/
structure Sound (fuel : Nat) : Prop where
  value : ∀ {text rest : List Char} {value : Json},
    readValue fuel text = .ok (value, rest) → ValueAt text value rest
  items : ∀ {text rest : List Char} {items : List Json},
    readItems fuel text = .ok (items, rest) → ItemsAt text items rest
  members : ∀ {text rest : List Char} {members : List (LooseText × Json)},
    readMembers fuel text = .ok (members, rest) → MembersAt text members rest

theorem Sound.value_succ {fuel : Nat} (ih : Sound fuel) {text rest : List Char} {value : Json}
    (h : readValue (fuel + 1) text = .ok (value, rest)) : ValueAt text value rest := by
  unfold readValue at h
  split at h
  · next body =>
    obtain ⟨⟨content, behind⟩, hread, hresult⟩ := bind_eq_ok.1 h
    obtain ⟨rfl, rfl⟩ := Prod.mk.inj (Except.ok.inj hresult)
    exact .string hread
  · next body =>
    split at h
    · next hclosed =>
      obtain ⟨rfl, rfl⟩ := Prod.mk.inj (Except.ok.inj h)
      exact .emptyArray hclosed
    · obtain ⟨⟨items, behind⟩, hitems, hresult⟩ := bind_eq_ok.1 h
      obtain ⟨rfl, rfl⟩ := Prod.mk.inj (Except.ok.inj hresult)
      exact .array (ih.items hitems)
  · next body =>
    split at h
    · next hclosed =>
      obtain ⟨rfl, rfl⟩ := Prod.mk.inj (Except.ok.inj h)
      exact .emptyObject hclosed
    · obtain ⟨⟨members, behind⟩, hmembers, hresult⟩ := bind_eq_ok.1 h
      obtain ⟨rfl, rfl⟩ := Prod.mk.inj (Except.ok.inj hresult)
      exact .object (ih.members hmembers)
  · exact .scalar h

theorem Sound.items_succ {fuel : Nat} (ih : Sound fuel) {text rest : List Char}
    {items : List Json} (h : readItems (fuel + 1) text = .ok (items, rest)) :
    ItemsAt text items rest := by
  unfold readItems at h
  obtain ⟨⟨item, behind⟩, hitem, h⟩ := bind_eq_ok.1 h
  dsimp only at h
  split at h
  · next hclosed =>
    obtain ⟨rfl, rfl⟩ := Prod.mk.inj (Except.ok.inj h)
    exact .last (ih.value hitem) hclosed
  · next hcomma =>
    obtain ⟨⟨more, last⟩, hmore, hresult⟩ := bind_eq_ok.1 h
    obtain ⟨rfl, rfl⟩ := Prod.mk.inj (Except.ok.inj hresult)
    exact .more (ih.value hitem) hcomma (ih.items hmore)
  · cases h

theorem Sound.members_succ {fuel : Nat} (ih : Sound fuel) {text rest : List Char}
    {members : List (LooseText × Json)} (h : readMembers (fuel + 1) text = .ok (members, rest)) :
    MembersAt text members rest := by
  unfold readMembers at h
  split at h
  · next body =>
    obtain ⟨⟨key, behindKey⟩, hkey, h⟩ := bind_eq_ok.1 h
    dsimp only at h
    split at h
    · next hcolon =>
      obtain ⟨⟨value, behind⟩, hvalue, h⟩ := bind_eq_ok.1 h
      dsimp only at h
      split at h
      · next hclosed =>
        obtain ⟨rfl, rfl⟩ := Prod.mk.inj (Except.ok.inj h)
        exact .last hkey hcolon (ih.value hvalue) hclosed
      · next hcomma =>
        obtain ⟨⟨more, last⟩, hmore, hresult⟩ := bind_eq_ok.1 h
        obtain ⟨rfl, rfl⟩ := Prod.mk.inj (Except.ok.inj hresult)
        exact .more hkey hcolon (ih.value hvalue) hcomma (ih.members hmore)
      · cases h
    · cases h
  · cases h

theorem sound (fuel : Nat) : Sound fuel := by
  induction fuel with
  | zero =>
    constructor
    · intro text rest value h
      simp [readValue, refuse] at h
    · intro text rest items h
      simp [readItems, refuse] at h
    · intro text rest members h
      simp [readMembers, refuse] at h
  | succ fuel ih => exact ⟨ih.value_succ, ih.items_succ, ih.members_succ⟩

/-! ## Every value takes up characters -/

theorem length_lt_of_readText {opening text rest : List Char} {skip : Nat} {done : List Symbol}
    {content : LooseText} (h : readText opening skip done text = .ok (content, rest)) :
    rest.length < text.length := by
  induction text generalizing skip done with
  | nil => simp [readText, refuse] at h
  | cons c text ih =>
    rw [List.length_cons]
    have hrest : ∀ {skip : Nat} {done : List Symbol},
        readText opening skip done text = .ok (content, rest) → rest.length < text.length + 1 :=
      fun h => Nat.lt_succ_of_lt (ih h)
    unfold readText at h
    split at h
    · exact hrest h
    split at h
    · obtain ⟨-, rfl⟩ := Prod.mk.inj (Except.ok.inj h)
      exact Nat.lt_succ_self _
    split at h
    · split at h
      · cases h
      split at h
      · cases h
      · exact hrest h
    split at h
    · cases h
    · exact hrest h

theorem length_le_of_exponentSign (text : List Char) :
    (exponentSign text).2.length ≤ text.length := by
  unfold exponentSign
  split <;> simp

theorem length_le_of_exponent? {text rest : List Char} {exponent : Int}
    (h : exponent? text = some (exponent, rest)) : rest.length ≤ text.length := by
  unfold exponent? at h
  split at h
  · next mark body =>
    have hsign := length_le_of_exponentSign body
    split at h
    · dsimp only at h
      split at h
      · cases h
      · obtain ⟨-, rfl⟩ := Prod.mk.inj (Option.some.inj h)
        rw [List.length_drop, List.length_cons]
        omega
    · cases h
  · cases h

theorem length_skipFraction_le (text : List Char) : (skipFraction text).length ≤ text.length := by
  unfold skipFraction
  dsimp only
  split
  · exact Nat.le_refl _
  · rw [List.length_drop]
    omega

theorem length_lt_of_number? {text rest : List Char} {value : Number}
    (h : number? text = some (value, rest)) : rest.length < text.length := by
  have hbody : (minusSign text).2.length ≤ text.length := by
    unfold minusSign
    split <;> simp
  unfold number? at h
  dsimp only at h
  split at h
  · cases h
  next hwhole =>
  have hpositive : 0 < (wholeDigits (minusSign text).2).length := by
    rw [List.length_pos_iff]
    simpa using hwhole
  have hnonempty : 0 < (minusSign text).2.length := by
    rw [List.length_pos_iff]
    intro hnil
    simp [hnil, wholeDigits] at hwhole
  have hfraction := length_skipFraction_le
    ((minusSign text).2.drop (wholeDigits (minusSign text).2).length)
  rw [List.length_drop] at hfraction
  split at h
  · next hexponent =>
    obtain ⟨-, rfl⟩ := Prod.mk.inj (Option.some.inj h)
    have hle := length_le_of_exponent? hexponent
    omega
  · split at h <;>
    · obtain ⟨-, rfl⟩ := Prod.mk.inj (Option.some.inj h)
      omega

theorem length_lt_of_readScalar {text rest : List Char} {value : Json}
    (h : readScalar text = .ok (value, rest)) : rest.length < text.length := by
  unfold readScalar at h
  split at h
  · next word found hfind =>
    obtain ⟨-, rfl⟩ := Prod.mk.inj (Except.ok.inj h)
    have hwords : ∀ entry ∈ words, 0 < entry.1.toList.length := by decide
    have hpositive : 0 < word.toList.length := hwords _ (List.mem_of_find?_eq_some hfind)
    have hstart : word.toList.isPrefixOf text = true := by simpa using List.find?_some hfind
    have hle := (List.isPrefixOf_iff_prefix.1 hstart).length_le
    rw [String.length_toList] at hpositive hle
    rw [List.length_drop]
    omega
  · split at h
    · next hnumber =>
      obtain ⟨-, rfl⟩ := Prod.mk.inj (Except.ok.inj h)
      exact length_lt_of_number? hnumber
    · cases h

theorem length_lt_of_skipBlanks {text rest : List Char} {c : Char}
    (h : skipBlanks text = c :: rest) : rest.length < text.length := by
  have hle := length_skipBlanks_le text
  rw [h, List.length_cons] at hle
  omega

mutual

theorem ValueAt.length_lt {text rest : List Char} {value : Json} :
    ValueAt text value rest → rest.length < text.length
  | .string hread => Nat.lt_succ_of_lt (length_lt_of_readText hread)
  | .emptyArray hclosed => Nat.lt_succ_of_lt (length_lt_of_skipBlanks hclosed)
  | .array hitems =>
    Nat.lt_succ_of_lt (Nat.lt_of_lt_of_le hitems.length_lt (length_skipBlanks_le _))
  | .emptyObject hclosed => Nat.lt_succ_of_lt (length_lt_of_skipBlanks hclosed)
  | .object hmembers =>
    Nat.lt_succ_of_lt (Nat.lt_of_lt_of_le hmembers.length_lt (length_skipBlanks_le _))
  | .scalar hread => length_lt_of_readScalar hread

theorem ItemsAt.length_lt {text rest : List Char} {items : List Json} :
    ItemsAt text items rest → rest.length < text.length
  | .last hitem hclosed => Nat.lt_trans (length_lt_of_skipBlanks hclosed) hitem.length_lt
  | .more hitem hcomma hitems => by
    have hbehind := hitem.length_lt
    have hnext := length_lt_of_skipBlanks hcomma
    have hrest := Nat.lt_of_lt_of_le hitems.length_lt (length_skipBlanks_le _)
    omega

theorem MembersAt.length_lt {text rest : List Char} {members : List (LooseText × Json)} :
    MembersAt text members rest → rest.length < text.length
  | .last hkey hcolon hvalue hclosed => by
    have hbehindKey := length_lt_of_readText hkey
    have hnext := length_lt_of_skipBlanks hcolon
    have hbehind := Nat.lt_of_lt_of_le hvalue.length_lt (length_skipBlanks_le _)
    have hrest := length_lt_of_skipBlanks hclosed
    rw [List.length_cons]
    omega
  | .more hkey hcolon hvalue hcomma hmembers => by
    have hbehindKey := length_lt_of_readText hkey
    have hnext := length_lt_of_skipBlanks hcolon
    have hbehind := Nat.lt_of_lt_of_le hvalue.length_lt (length_skipBlanks_le _)
    have hfurther := length_lt_of_skipBlanks hcomma
    have hrest := Nat.lt_of_lt_of_le hmembers.length_lt (length_skipBlanks_le _)
    rw [List.length_cons]
    omega

end

/-! ## What is in the grammar is read -/

/-- The first character of a scalar starts no other kind of value and closes nothing. -/
theorem readScalar_eq_error {c : Char} (hc : c ∈ ['"', '[', ']', '\x7b', '\x7d'])
    (text : List Char) : ∃ refusal, readScalar (c :: text) = .error refusal := by
  simp only [List.mem_cons, List.not_mem_nil, or_false] at hc
  rcases hc with rfl | rfl | rfl | rfl | rfl <;>
    exact ⟨_, by simp [readScalar, words, number?, minusSign, wholeDigits, refuse]; rfl⟩

theorem ValueAt.ne_closing {text rest : List Char} {value : Json} (h : ValueAt text value rest)
    (behind : List Char) : text ≠ ']' :: behind := by
  rintro rfl
  cases h with
  | scalar hread =>
    obtain ⟨refusal, herror⟩ := readScalar_eq_error (show ']' ∈ _ by decide) behind
    rw [herror] at hread
    cases hread

theorem ItemsAt.ne_closing {text rest : List Char} {items : List Json}
    (h : ItemsAt text items rest) (behind : List Char) : text ≠ ']' :: behind := by
  cases h with
  | last hitem => exact hitem.ne_closing behind
  | more hitem => exact hitem.ne_closing behind

theorem MembersAt.ne_closing {text rest : List Char} {members : List (LooseText × Json)}
    (h : MembersAt text members rest) (behind : List Char) : text ≠ '\x7d' :: behind := by
  cases h <;> simp

/-- The values of the grammar are read with fuel for the characters that they take up. -/
structure Complete (fuel : Nat) : Prop where
  value : ∀ {text rest : List Char} {value : Json}, ValueAt text value rest →
    text.length ≤ fuel + rest.length → readValue fuel text = .ok (value, rest)
  items : ∀ {text rest : List Char} {items : List Json}, ItemsAt text items rest →
    text.length ≤ fuel + rest.length → readItems fuel text = .ok (items, rest)
  members : ∀ {text rest : List Char} {members : List (LooseText × Json)},
    MembersAt text members rest → text.length ≤ fuel + rest.length →
    readMembers fuel text = .ok (members, rest)

theorem Complete.value_succ {fuel : Nat} (ih : Complete fuel) {text rest : List Char}
    {value : Json} (h : ValueAt text value rest) (hfuel : text.length ≤ fuel + 1 + rest.length) :
    readValue (fuel + 1) text = .ok (value, rest) := by
  cases h with
  | string hread =>
    rw [readValue, hread]
    rfl
  | emptyArray hclosed => simp only [readValue, hclosed]
  | @array body _ items hitems =>
    have hbody := length_skipBlanks_le body
    have hread := ih.items hitems (by rw [List.length_cons] at hfuel; omega)
    simp only [readValue]
    split
    · next behind hclosed => exact absurd hclosed (hitems.ne_closing behind)
    · rw [hread]
      rfl
  | emptyObject hclosed => simp only [readValue, hclosed]
  | @object body _ members hmembers =>
    have hbody := length_skipBlanks_le body
    have hread := ih.members hmembers (by rw [List.length_cons] at hfuel; omega)
    simp only [readValue]
    split
    · next behind hclosed => exact absurd hclosed (hmembers.ne_closing behind)
    · rw [hread]
      rfl
  | scalar hread =>
    have hfirst : ∀ {c : Char}, c ∈ ['"', '[', ']', '\x7b', '\x7d'] →
        ∀ behind, text ≠ c :: behind := by
      rintro c hc behind rfl
      obtain ⟨refusal, herror⟩ := readScalar_eq_error hc behind
      rw [herror] at hread
      cases hread
    unfold readValue
    split
    · next behind => exact absurd rfl (hfirst (by decide) behind)
    · next behind => exact absurd rfl (hfirst (by decide) behind)
    · next behind => exact absurd rfl (hfirst (by decide) behind)
    · exact hread

theorem Complete.items_succ {fuel : Nat} (ih : Complete fuel) {text rest : List Char}
    {items : List Json} (h : ItemsAt text items rest)
    (hfuel : text.length ≤ fuel + 1 + rest.length) :
    readItems (fuel + 1) text = .ok (items, rest) := by
  cases h with
  | last hitem hclosed =>
    have hrest := length_lt_of_skipBlanks hclosed
    rw [readItems, ih.value hitem (by omega)]
    simp only [bind, Except.bind, hclosed]
    rfl
  | @more _ _ next _ _ _ hitem hcomma hitems =>
    have hbehind := hitem.length_lt
    have hnext := length_lt_of_skipBlanks hcomma
    have hfurther := length_skipBlanks_le next
    have hrest := hitems.length_lt
    rw [readItems, ih.value hitem (by omega)]
    simp only [bind, Except.bind, hcomma]
    rw [ih.items hitems (by omega)]
    rfl

theorem Complete.members_succ {fuel : Nat} (ih : Complete fuel) {text rest : List Char}
    {members : List (LooseText × Json)} (h : MembersAt text members rest)
    (hfuel : text.length ≤ fuel + 1 + rest.length) :
    readMembers (fuel + 1) text = .ok (members, rest) := by
  cases h with
  | @last body _ next _ _ _ _ hkey hcolon hvalue hclosed =>
    have hbehindKey := length_lt_of_readText hkey
    have hnext := length_lt_of_skipBlanks hcolon
    have hvalueText := length_skipBlanks_le next
    have hrest := length_lt_of_skipBlanks hclosed
    rw [List.length_cons] at hfuel
    rw [readMembers, hkey]
    simp only [bind, Except.bind, hcolon]
    rw [ih.value hvalue (by omega)]
    simp only [hclosed]
    rfl
  | @more body _ next _ further _ _ _ _ hkey hcolon hvalue hcomma hmembers =>
    have hbehindKey := length_lt_of_readText hkey
    have hnext := length_lt_of_skipBlanks hcolon
    have hvalueText := length_skipBlanks_le next
    have hbehind := hvalue.length_lt
    have hfurther := length_lt_of_skipBlanks hcomma
    have hmembersText := length_skipBlanks_le further
    have hrest := hmembers.length_lt
    rw [List.length_cons] at hfuel
    rw [readMembers, hkey]
    simp only [bind, Except.bind, hcolon]
    rw [ih.value hvalue (by omega)]
    simp only [hcomma]
    rw [ih.members hmembers (by omega)]
    rfl

theorem complete (fuel : Nat) : Complete fuel := by
  induction fuel with
  | zero =>
    constructor
    · intro text rest value h hfuel
      exact absurd h.length_lt (by omega)
    · intro text rest items h hfuel
      exact absurd h.length_lt (by omega)
    · intro text rest members h hfuel
      exact absurd h.length_lt (by omega)
  | succ fuel ih => exact ⟨ih.value_succ, ih.items_succ, ih.members_succ⟩

/-! ## Whole texts -/

/-- **Texts are read as the grammar says.** A text gives a value exactly if it does not start with a
    byte order mark and the value stands in it between blanks. -/
theorem readAll_eq_ok_iff {text : List Char} {value : Json} :
    readAll text = .ok value ↔ (∀ behind, text ≠ '\uFEFF' :: behind) ∧
      ∃ rest, ValueAt (skipBlanks text) value rest ∧ skipBlanks rest = [] := by
  unfold readAll
  split
  · next behind => simp
  next hmark =>
  constructor
  · intro h
    split at h
    · cases h
    next found rest hread =>
    split at h
    · next hend =>
      obtain rfl := Except.ok.inj h
      exact ⟨hmark, rest, (sound _).value hread, hend⟩
    · cases h
  · rintro ⟨-, rest, hvalue, hend⟩
    have hfuel : (skipBlanks text).length ≤ 2 * text.length + 1 + rest.length := by
      have hle := length_skipBlanks_le text
      omega
    rw [(complete _).value hvalue hfuel]
    simp only [hend]

/-- The same for a text as a string. -/
theorem read_eq_ok_iff {text : String} {value : Json} :
    read text = .ok value ↔ readAll text.toList = .ok value :=
  mapError_eq_ok

end ApiScribe.Json
