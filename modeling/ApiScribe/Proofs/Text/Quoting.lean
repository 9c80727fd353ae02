import ApiScribe.Proofs.Text.Delimited

set_option autoImplicit false

/-! # What a literal is

A literal stands between two quotes, holds no control, and is read back as the text that it was made
from (`IsLiteralOf`). It could do all this and still be longer than it has to be, so it is also said
which texts it shows as they are: those in which no character needs an escape. The quotes inside a
text are escaped and so are the backslashes, and the first quote that is not behind an open escape
ends the literal. So whatever is put behind a literal, both can be told from the whole
(`quoted_isLiteralOf`). -/

namespace ApiScribe.Text

/-! ## Characters inside a literal -/

/-- The character would end the literal, or start an escape, or be a control. -/
def NeedsEscape (c : Char) : Prop := c = '"' ∨ c = '\\' ∨ c < ' '

/-- The three forms of a character, told apart by whether it needs an escape. -/
theorem quotedChar_eq_self_iff {c : Char} : quotedChar c = [c] ↔ ¬NeedsEscape c := by
  unfold NeedsEscape
  rcases quotedChar_cases c with ⟨letter, h, -, hescaped⟩ | ⟨hc, h⟩ | ⟨h, hquote, hback, hc⟩
  · have hneeds : c = '"' ∨ c = '\\' ∨ c < ' ' := by
      unfold quotedChar at h
      split at h
      case h_8 =>
        split at h
        · next hc => exact .inr (.inr hc)
        · exact absurd h (by simp)
      all_goals decide
    simp [h, hneeds]
  · simp [h, hc]
  · simp [h, hquote, hback, hc]

theorem length_quotedChar_pos (c : Char) : 0 < (quotedChar c).length := by
  rcases quotedChar_cases c with ⟨letter, h, -⟩ | ⟨-, h⟩ | ⟨h, -⟩ <;> simp [h]

theorem length_le_length_flatMap_quotedChar (text : List Char) :
    text.length ≤ (text.flatMap quotedChar).length := by
  induction text with
  | nil => exact Nat.le_refl 0
  | cons c text ih =>
    have hc := length_quotedChar_pos c
    rw [List.flatMap_cons, List.length_append, List.length_cons]
    omega

/-- The body of a literal is the text itself exactly if no character of it needs an escape. -/
theorem flatMap_quotedChar_eq_self_iff {text : List Char} :
    text.flatMap quotedChar = text ↔ ∀ c ∈ text, ¬NeedsEscape c := by
  induction text with
  | nil => simp
  | cons c text ih =>
    rw [List.forall_mem_cons, ← ih, ← quotedChar_eq_self_iff, List.flatMap_cons]
    constructor
    · intro h
      -- a longer form of the first character would leave too little for the others
      have hlength := congrArg List.length h
      have hc := length_quotedChar_pos c
      have htext := length_le_length_flatMap_quotedChar text
      rw [List.length_append, List.length_cons] at hlength
      obtain ⟨d, hd⟩ := List.length_eq_one_iff.1 (show (quotedChar c).length = 1 by omega)
      rw [hd] at h ⊢
      obtain ⟨rfl, hrest⟩ := List.cons.inj h
      exact ⟨rfl, hrest⟩
    · rintro ⟨hc, htext⟩
      rw [hc, htext, List.singleton_append]

/-- No form of a character holds a control. -/
theorem not_lt_space_of_mem_quotedChar {c d : Char} (h : d ∈ quotedChar c) : ¬d < ' ' := by
  rcases quotedChar_cases c with ⟨letter, hc, -, hescaped⟩ | ⟨-, hc⟩ | ⟨hc, -, -, hspace⟩
  · rw [hc, List.mem_cons, List.mem_singleton] at h
    rcases h with rfl | rfl
    · decide
    · unfold Json.escaped? at hescaped
      split at hescaped <;> first | decide | simp at hescaped
  · rw [hc, List.mem_cons, List.mem_cons] at h
    rcases h with rfl | rfl | h
    · decide
    · decide
    · obtain ⟨digit, hdigit, rfl⟩ := mem_hexDigits h
      have table : ∀ digit ∈ List.range 16, ¬Nat.digitChar digit < ' ' := by decide
      exact table digit (List.mem_range.2 hdigit)
  · rw [hc, List.mem_singleton] at h
    rw [h]
    exact hspace

/-! ## Whole literals -/

/-- The literal writes the text, and no escape in it is needless. -/
structure IsLiteralOf (text literal : String) : Prop where
  /-- The opening quote is not the closing one. -/
  quotes : ∃ body, literal.toList = '"' :: (body ++ ['"'])
  noControl : ∀ c ∈ literal.toList, ¬c < ' '
  /-- As a JSON text it has the text for its value. -/
  value : Json.read literal = .ok (.string (.ofString text))
  verbatim : literal = "\"" ++ text ++ "\"" ↔ ∀ c ∈ text.toList, ¬NeedsEscape c

theorem quoted_eq_verbatim_iff (text : String) :
    quoted text = "\"" ++ text ++ "\"" ↔ ∀ c ∈ text.toList, ¬NeedsEscape c := by
  rw [← flatMap_quotedChar_eq_self_iff, ← String.toList_inj, toList_quoted]
  simp

/-- **Literals say what they write and where they end**: a quoted text is a literal of the text, and
    two literals with something behind them are the same only if the texts are and what is behind
    them is. -/
theorem quoted_isLiteralOf (text : String) :
    IsLiteralOf text (quoted text) ∧
      ∀ other rest rest' : String,
        quoted text ++ rest = quoted other ++ rest' ↔ text = other ∧ rest = rest' := by
  refine ⟨⟨⟨_, toList_quoted text⟩, ?_, read_quoted text, quoted_eq_verbatim_iff text⟩, ?_⟩
  · intro c hc
    rw [toList_quoted, List.cons_append, List.mem_cons, List.mem_append, List.mem_flatMap,
      List.mem_singleton] at hc
    rcases hc with rfl | ⟨d, -, hc⟩ | rfl
    · decide
    · exact not_lt_space_of_mem_quotedChar hc
    · decide
  · intro other rest rest'
    constructor
    · intro h
      have hlist : (quoted text).toList ++ rest.toList = (quoted other).toList ++ rest'.toList := by
        rw [← String.toList_append, h, String.toList_append]
      obtain ⟨htext, hrest⟩ := selfDelimiting_quoted trivial trivial hlist
      exact ⟨htext, String.toList_inj.1 hrest⟩
    · rintro ⟨rfl, rfl⟩
      rfl

-- a backslash before a quote, a control without a short form, and a separator that needs no escape
example : quoted "\\\"\x1f\u2028" = "\"\\\\\\\"\\u001f\u2028\"" := by decide

end ApiScribe.Text
