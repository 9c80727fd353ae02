import ApiScribe.Text.Ansi

set_option autoImplicit false

/-! # Texts without terminal control sequences

`IsControl` says what a control sequence is, and a text is `Plain` if none stands anywhere in it.
The characters that may follow one another in a sequence are of different kinds, so at most one
sequence starts at any place, and the length that is dropped there is found without looking further
(`controlLength_pos_iff`). Exactly the plain texts are echoed unchanged
(`stripControls_eq_self_iff`). -/

namespace ApiScribe.Text

/-! ## Control sequences -/

/-- The characters of parameters. -/
def isParameter (c : Char) : Bool := '0' ≤ c && c ≤ '?'

/-- The characters that may stand between the parameters and the last character. -/
def isIntermediate (c : Char) : Bool := ' ' ≤ c && c ≤ '/'

/-- The characters that end a sequence. -/
def isFinal (c : Char) : Bool := '@' ≤ c && c ≤ '~'

/-- ESC, an opening bracket, parameters, intermediate characters, and one final character. -/
def IsControl (part : List Char) : Prop :=
  ∃ parameters intermediates final,
    part = '\x1b' :: '[' :: (parameters ++ (intermediates ++ [final])) ∧
      (∀ c ∈ parameters, isParameter c = true) ∧
      (∀ c ∈ intermediates, isIntermediate c = true) ∧ isFinal final = true

/-- No control sequence stands in the text. -/
def Plain (text : String) : Prop := ∀ part, part <:+: text.toList → ¬IsControl part

theorem isParameter_eq_false {c : Char} (h : isIntermediate c = true ∨ isFinal c = true) :
    isParameter c = false := by
  simp only [isParameter, isIntermediate, isFinal, Bool.and_eq_true, decide_eq_true_eq,
    Bool.and_eq_false_iff, decide_eq_false_iff_not, Char.le_def, UInt32.le_iff_toNat_le] at h ⊢
  have hzero : '0'.val.toNat = 48 ∧ '/'.val.toNat = 47 := by decide
  have hend : '?'.val.toNat = 63 ∧ '@'.val.toNat = 64 := by decide
  omega

theorem isIntermediate_eq_false {c : Char} (h : isFinal c = true) : isIntermediate c = false := by
  simp only [isIntermediate, isFinal, Bool.and_eq_true, decide_eq_true_eq,
    Bool.and_eq_false_iff, decide_eq_false_iff_not, Char.le_def, UInt32.le_iff_toNat_le] at h ⊢
  have hbound : '/'.val.toNat = 47 ∧ '@'.val.toNat = 64 := by decide
  omega

/-! ## Where a sequence starts -/

/-- Characters of a kind are followed by one of another kind, or by nothing. -/
theorem span_of_boundary {p : Char → Bool} {word rest : List Char} (hword : ∀ c ∈ word, p c = true)
    (hrest : ∀ c ∈ rest.head?, p c = false) :
    (word ++ rest).takeWhile p = word ∧ (word ++ rest).dropWhile p = rest := by
  rw [List.takeWhile_append_of_pos hword, List.dropWhile_append_of_pos hword]
  cases rest with
  | nil => simp
  | cons c rest =>
    have hc : p c = false := hrest c rfl
    simp [hc]

theorem controlLength_escape (rest : List Char) :
    controlLength ('\x1b' :: '[' :: rest) =
      match (rest.dropWhile isParameter).dropWhile isIntermediate with
      | final :: _ =>
        if isFinal final then
          3 + (rest.takeWhile isParameter).length +
            ((rest.dropWhile isParameter).takeWhile isIntermediate).length
        else 0
      | [] => 0 := by
  have hdrop : ∀ (p : Char → Bool) (l : List Char),
      l.drop (l.takeWhile p).length = l.dropWhile p := by
    intro p l
    have hleft : (l.takeWhile p ++ l.dropWhile p).drop (l.takeWhile p).length = l.dropWhile p :=
      List.drop_left
    rwa [List.takeWhile_append_dropWhile] at hleft
  unfold controlLength
  simp only [isFinal, Bool.and_eq_true, decide_eq_true_eq, ← hdrop]
  rfl

/-- Something is dropped at the start of a text exactly if a control sequence stands there. -/
theorem controlLength_pos_iff {text : List Char} :
    0 < controlLength text ↔ ∃ part, part <+: text ∧ IsControl part := by
  constructor
  · intro h
    obtain ⟨rest, rfl⟩ : ∃ rest, text = '\x1b' :: '[' :: rest := by
      unfold controlLength at h
      split at h
      · exact ⟨_, rfl⟩
      · exact absurd h (Nat.lt_irrefl 0)
    rw [controlLength_escape] at h
    split at h
    · next final more hmore =>
      split at h
      · next hfinal =>
        refine ⟨_, ?_, rest.takeWhile isParameter,
          (rest.dropWhile isParameter).takeWhile isIntermediate, final, rfl,
          List.all_eq_true.1 List.all_takeWhile, List.all_eq_true.1 List.all_takeWhile, hfinal⟩
        refine ⟨more, ?_⟩
        rw [List.cons_append, List.cons_append, List.append_assoc, List.append_assoc,
          List.singleton_append, ← hmore, List.takeWhile_append_dropWhile,
          List.takeWhile_append_dropWhile]
      · exact absurd h (Nat.lt_irrefl 0)
    · exact absurd h (Nat.lt_irrefl 0)
  · rintro ⟨_, ⟨more, rfl⟩, parameters, intermediates, final, rfl, hparameters, hintermediates,
      hfinal⟩
    -- the parameters end where another kind of character stands, and so do the intermediates
    have hboundary : ∀ c ∈ (intermediates ++ final :: more).head?, isParameter c = false := by
      cases intermediates with
      | nil => simpa using isParameter_eq_false (.inr hfinal)
      | cons c intermediates =>
        simpa using isParameter_eq_false (.inl (hintermediates c (List.mem_cons_self ..)))
    have hfinalBoundary : ∀ c ∈ (final :: more).head?, isIntermediate c = false := by
      simpa using isIntermediate_eq_false hfinal
    obtain ⟨htake, hdrop⟩ := span_of_boundary hparameters hboundary
    obtain ⟨htake', hdrop'⟩ := span_of_boundary hintermediates hfinalBoundary
    have htext : '\x1b' :: '[' :: (parameters ++ (intermediates ++ [final])) ++ more =
        '\x1b' :: '[' :: (parameters ++ (intermediates ++ final :: more)) := by simp
    rw [htext, controlLength_escape, htake, hdrop, htake', hdrop']
    dsimp only
    rw [if_pos hfinal]
    omega

/-! ## What is left of a text -/

theorem length_dropControls_le (skip : Nat) (text : List Char) :
    (dropControls skip text).length ≤ text.length := by
  induction text generalizing skip with
  | nil => exact Nat.le_refl _
  | cons c rest ih =>
    unfold dropControls
    split
    · exact Nat.le_succ_of_le (ih _)
    · split
      · exact Nat.succ_le_succ (ih 0)
      · exact Nat.le_succ_of_le (ih _)

/-- A text is left as it is exactly if no control sequence starts in it. -/
theorem dropControls_eq_self_iff {text : List Char} :
    dropControls 0 text = text ↔ ∀ behind, behind <:+ text → controlLength behind = 0 := by
  induction text with
  | nil =>
    refine iff_of_true rfl fun behind hbehind => ?_
    rw [List.suffix_nil.1 hbehind]
    rfl
  | cons c rest ih =>
    cases hlength : controlLength (c :: rest) with
    | zero =>
      rw [dropControls, hlength]
      simp only [List.cons.injEq, true_and, ih, List.suffix_cons_iff]
      constructor
      · rintro h behind (rfl | hbehind)
        · exact hlength
        · exact h behind hbehind
      · exact fun h behind hbehind => h behind (.inr hbehind)
    | succ length =>
      -- more is dropped than is there, so the rest is too short
      refine iff_of_false ?_ fun h => ?_
      · intro heq
        have hdropped : dropControls 0 (c :: rest) = dropControls length rest := by
          rw [dropControls, hlength]
        have hle := length_dropControls_le length rest
        rw [← hdropped, heq, List.length_cons] at hle
        omega
      · rw [h _ (List.suffix_refl _)] at hlength
        cases hlength

/-- **Echoed texts.** A text is echoed unchanged exactly if no control sequence stands in it. -/
theorem stripControls_eq_self_iff {text : String} : stripControls text = text ↔ Plain text := by
  have hlist : stripControls text = text ↔ dropControls 0 text.toList = text.toList := by
    rw [stripControls, ← String.toList_inj, String.toList_ofList]
  rw [hlist, dropControls_eq_self_iff]
  unfold Plain
  constructor
  · intro h part hpart hcontrol
    obtain ⟨behind, hstart, hbehind⟩ := List.infix_iff_prefix_suffix.1 hpart
    have hpos := controlLength_pos_iff.2 ⟨part, hstart, hcontrol⟩
    rw [h behind hbehind] at hpos
    exact absurd hpos (Nat.lt_irrefl 0)
  · intro h behind hbehind
    refine Nat.eq_zero_of_not_pos fun hpos => ?_
    obtain ⟨part, hstart, hcontrol⟩ := controlLength_pos_iff.1 hpos
    exact h part (List.infix_iff_prefix_suffix.2 ⟨behind, hstart, hbehind⟩) hcontrol

/-- A text without ESC holds no control sequence. -/
theorem plain_of_notMem {text : String} (h : '\x1b' ∉ text.toList) : Plain text :=
  stripControls_eq_self_iff.1 (by rw [stripControls, dropControls_eq_self h, String.ofList_toList])

end ApiScribe.Text
