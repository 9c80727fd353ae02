import ApiScribe.Text.Lines

set_option autoImplicit false

/-! # Texts of one line

A text without line breaks is one line for `splitLines`, and cutting a text at the newline behind
such a line gives the line and the lines of the rest (`splitLines_append_newline`). -/

namespace ApiScribe.Text

/-- No character of the text ends a line in any convention. -/
def OneLine (text : String) : Prop := ∀ c ∈ text.toList, isLineBreak c = false

-- by the characters of the text, never by all there are
instance (text : String) : Decidable (OneLine text) :=
  List.decidableBAll (isLineBreak · = false) text.toList

@[simp]
theorem oneLine_append (a b : String) : OneLine (a ++ b) ↔ OneLine a ∧ OneLine b := by
  simp only [OneLine, String.toList_append, List.mem_append]
  exact ⟨fun h => ⟨fun c hc => h c (.inl hc), fun c hc => h c (.inr hc)⟩,
    fun h c hc => hc.elim (h.1 c) (h.2 c)⟩

theorem oneLine_intercalate {separator : String} {texts : List String} (hsep : OneLine separator)
    (htexts : ∀ text ∈ texts, OneLine text) : OneLine (separator.intercalate texts) := by
  induction texts with
  | nil => simp [OneLine]
  | cons text texts ih =>
    have htext := htexts text (List.mem_cons_self ..)
    have hrest := ih fun x hx => htexts x (List.mem_cons_of_mem _ hx)
    cases texts with
    | nil => simpa using htext
    | cons next texts =>
      rw [String.intercalate_cons_cons]
      simp only [oneLine_append]
      exact ⟨⟨htext, hsep⟩, hrest⟩

/-! ## Cutting off one line -/

theorem splitLines_cons {c : Char} (hc : isLineBreak c = false) (rest : List Char) :
    splitLines (c :: rest) =
      match splitLines rest with
      | [] => [[c]]
      | line :: lines => (c :: line) :: lines := by
  have hcr : c ≠ '\r' := fun h => by simp [h, isLineBreak] at hc
  rw [splitLines]
  · exact if_neg (by simp [hc])
  · exact fun _ h => absurd h hcr

theorem splitLines_append_newline {line : List Char} (hline : ∀ c ∈ line, isLineBreak c = false)
    (rest : List Char) : splitLines (line ++ '\n' :: rest) = line :: splitLines rest := by
  induction line with
  | nil => simp [splitLines, isLineBreak]
  | cons c line ih =>
    rw [List.cons_append, splitLines_cons (hline c (List.mem_cons_self ..)),
      ih fun x hx => hline x (List.mem_cons_of_mem _ hx)]

/-! ## Counting lines -/

/-- Every break but CR, which may stand for one break together with an LF, makes a line. -/
theorem countP_isLineBreak_le_length_splitLines (text : List Char) :
    text.countP (fun c => isLineBreak c && c != '\r') ≤ (splitLines text).length := by
  fun_induction splitLines text with
  | case1 => simp
  | case2 rest ih => simp [isLineBreak] at ih ⊢; omega
  | case3 c rest _ hbreak ih => rw [List.countP_cons, List.length_cons]; split <;> omega
  | case4 c rest _ hbreak hrest ih =>
    rw [hrest, List.length_nil] at ih
    rw [List.countP_cons_of_neg (by simp [hbreak])]
    exact Nat.le_succ_of_le ih
  | case5 c rest _ hbreak line lines hrest ih =>
    rw [hrest] at ih
    rw [List.countP_cons_of_neg (by simp [hbreak])]
    exact ih

end ApiScribe.Text
