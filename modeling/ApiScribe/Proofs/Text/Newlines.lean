import ApiScribe.Text.Lines

set_option autoImplicit false

/-! # Texts that differ in their newlines only

A file may end its lines with LF, with CR LF or with CR. Two texts differ in this alone if they
become the same when their newlines are unified. What a reader does up to the first newline it does
on both (`SameButNewlines.of_append`), and behind a newline the texts may have different lengths, so
there they are followed step by step. -/

namespace ApiScribe.Text

/-- The characters that newlines consist of. -/
def isNewline (c : Char) : Bool := c = '\n' || c = '\r'

/-- The texts are the same once their newlines are unified. -/
def SameButNewlines (a b : List Char) : Prop := unifyNewlines a = unifyNewlines b

namespace SameButNewlines

theorem symm {a b : List Char} (h : SameButNewlines a b) : SameButNewlines b a := Eq.symm h

/-- Unifying newlines changes nothing else. -/
theorem unified (text : List Char) : SameButNewlines (unifyNewlines text) text :=
  unifyNewlines_eq_self (not_mem_unifyNewlines text)

end SameButNewlines

theorem unifyNewlines_cons {c : Char} (hc : c ≠ '\r') (rest : List Char) :
    unifyNewlines (c :: rest) = c :: unifyNewlines rest := by
  rw [unifyNewlines]
  · rw [if_neg hc]
  · intro rest' h
    exact absurd h hc

/-- A character of a unified text that is no newline comes from the same character. -/
theorem eq_cons_of_unifyNewlines_eq_cons {c : Char} (hc : isNewline c = false)
    {text unified : List Char} (h : unifyNewlines text = c :: unified) :
    ∃ rest, text = c :: rest ∧ unifyNewlines rest = unified := by
  have hlf : c ≠ '\n' := by
    rintro rfl
    simp [isNewline] at hc
  unfold unifyNewlines at h
  split at h
  · cases h
  · exact absurd (List.cons.inj h).1.symm hlf
  · next d rest _ =>
    obtain ⟨hd, hrest⟩ := List.cons.inj h
    split at hd
    · exact absurd hd.symm hlf
    · exact ⟨rest, by rw [hd], hrest⟩

namespace SameButNewlines

theorem of_nil {b : List Char} (h : SameButNewlines [] b) : b = [] := by
  have hb : unifyNewlines b = [] := h.symm
  unfold unifyNewlines at hb
  split at hb
  · rfl
  · cases hb
  · cases hb

theorem isEmpty_eq {a b : List Char} (h : SameButNewlines a b) : a.isEmpty = b.isEmpty := by
  cases a with
  | nil => rw [h.of_nil]
  | cons c a =>
    cases b with
    | nil => exact absurd h.symm.of_nil (by simp)
    | cons d b => rfl

/-- A character that is no newline stands in both texts. -/
theorem of_cons {c : Char} (hc : isNewline c = false) {a b : List Char}
    (h : SameButNewlines (c :: a) b) : ∃ b', b = c :: b' ∧ SameButNewlines a b' := by
  have hcr : c ≠ '\r' := by
    rintro rfl
    simp [isNewline] at hc
  have hb : unifyNewlines b = c :: unifyNewlines a := by
    rw [← unifyNewlines_cons hcr]
    exact h.symm
  obtain ⟨b', rfl, hb'⟩ := eq_cons_of_unifyNewlines_eq_cons hc hb
  exact ⟨b', rfl, hb'.symm⟩

/-- Either both texts start with a character that is no newline or none does. -/
theorem head_cases {c : Char} (hc : isNewline c = false) {a b : List Char}
    (h : SameButNewlines a b) :
    (∃ a' b', a = c :: a' ∧ b = c :: b' ∧ SameButNewlines a' b') ∨
      (∀ a', a ≠ c :: a') ∧ ∀ b', b ≠ c :: b' := by
  by_cases ha : ∃ a', a = c :: a'
  · obtain ⟨a', rfl⟩ := ha
    obtain ⟨b', rfl, hb'⟩ := of_cons hc h
    exact .inl ⟨a', b', rfl, rfl, hb'⟩
  · rw [not_exists] at ha
    refine .inr ⟨ha, ?_⟩
    rintro b' rfl
    obtain ⟨a', ha', -⟩ := of_cons hc h.symm
    exact ha a' ha'

/-- Characters without newlines stand in both texts. -/
theorem of_append {word : List Char} (hword : ∀ c ∈ word, isNewline c = false) {a b : List Char}
    (h : SameButNewlines (word ++ a) b) : ∃ b', b = word ++ b' ∧ SameButNewlines a b' := by
  induction word generalizing b with
  | nil => exact ⟨b, rfl, h⟩
  | cons c word ih =>
    obtain ⟨rest, rfl, hrest⟩ := of_cons (hword c (List.mem_cons_self ..)) h
    obtain ⟨b', rfl, hb'⟩ := ih (fun x hx => hword x (List.mem_cons_of_mem _ hx)) hrest
    exact ⟨b', rfl, hb'⟩

/-- Both texts start with the same characters of a kind that newlines are not of. -/
theorem takeWhile_eq {p : Char → Bool} (hp : ∀ c, isNewline c = true → p c = false)
    {a b : List Char} (h : SameButNewlines a b) : a.takeWhile p = b.takeWhile p := by
  have hplain : ∀ {c : Char}, p c = true → isNewline c = false := by
    intro c hc
    refine Bool.eq_false_iff.2 fun hnewline => ?_
    rw [hp c hnewline] at hc
    cases hc
  induction a generalizing b with
  | nil => rw [h.of_nil]
  | cons c a ih =>
    by_cases hc : p c = true
    · obtain ⟨b', rfl, hb'⟩ := of_cons (hplain hc) h
      rw [List.takeWhile_cons_of_pos hc, List.takeWhile_cons_of_pos hc, ih hb']
    · rw [List.takeWhile_cons_of_neg hc]
      cases b with
      | nil => rfl
      | cons d b =>
        -- if the second text went on, the first one would start in the same way
        rw [List.takeWhile_cons_of_neg]
        intro hd
        obtain ⟨a', ha', -⟩ := of_cons (hplain hd) h.symm
        exact hc (by rw [(List.cons.inj ha').1]; exact hd)

/-- Behind a common start without newlines the texts are still the same but for their newlines. -/
theorem drop_length {word : List Char} (hword : ∀ c ∈ word, isNewline c = false) {a b : List Char}
    (h : SameButNewlines a b) (hstart : word <+: a) :
    SameButNewlines (a.drop word.length) (b.drop word.length) := by
  obtain ⟨a', rfl⟩ := hstart
  obtain ⟨b', rfl, hb'⟩ := of_append hword h
  simpa using hb'

/-- Either both texts start with a word without newlines or none does. -/
theorem isPrefixOf_eq {word : List Char} (hword : ∀ c ∈ word, isNewline c = false)
    {a b : List Char} (h : SameButNewlines a b) : word.isPrefixOf a = word.isPrefixOf b := by
  have hone : ∀ {a b : List Char}, SameButNewlines a b → word <+: a → word <+: b := by
    rintro a b h ⟨a', rfl⟩
    obtain ⟨b', rfl, -⟩ := of_append hword h
    exact List.prefix_append ..
  rw [Bool.eq_iff_iff, List.isPrefixOf_iff_prefix, List.isPrefixOf_iff_prefix]
  exact ⟨hone h, hone h.symm⟩

end SameButNewlines

end ApiScribe.Text
