import ApiScribe.Proofs.Text.Literal

set_option autoImplicit false

/-! # Identifiers

The names that a client module is made of. An identifier has none of the characters that structure
the text of a module, so it ends where one of them stands, and it looks the same between quotes. -/

namespace ApiScribe.Text

/-- An ASCII letter or digit, the underscore or the dollar sign. -/
def isIdentifierChar (c : Char) : Bool := c.isAlphanum || c == '_' || c == '$'

/-- At least one character, all of them those of identifiers. -/
def IsIdentifier (text : String) : Prop :=
  text ≠ "" ∧ ∀ c ∈ text.toList, isIdentifierChar c = true

instance (text : String) : Decidable (IsIdentifier text) :=
  have := List.decidableBAll (isIdentifierChar · = true) text.toList
  inferInstanceAs (Decidable (text ≠ "" ∧ ∀ c ∈ text.toList, isIdentifierChar c = true))

theorem IsIdentifier.toList_ne_nil {text : String} (h : IsIdentifier text) : text.toList ≠ [] := by
  simpa using h.1

/-- A character of another kind does not occur in an identifier. -/
theorem IsIdentifier.not_mem {text : String} (h : IsIdentifier text) {c : Char}
    (hc : isIdentifierChar c = false) : c ∉ text.toList := by
  intro hmem
  rw [h.2 c hmem] at hc
  cases hc

theorem IsIdentifier.oneLine {text : String} (h : IsIdentifier text) : OneLine text := by
  intro c hc
  refine Bool.eq_false_iff.2 fun hbreak => ?_
  simp only [isLineBreak, List.mem_cons, List.not_mem_nil, or_false, decide_eq_true_eq] at hbreak
  rcases hbreak with rfl | rfl | rfl | rfl | rfl | rfl | rfl | rfl | rfl | rfl <;>
    exact h.not_mem (by decide) hc

theorem not_lt_space_of_isIdentifierChar {c : Char} (h : isIdentifierChar c = true) :
    ¬ c < ' ' := by
  intro hc
  have hlt : c.toNat < 32 := toNat_lt_of_lt_space hc
  have table : ∀ n ∈ List.range 32, isIdentifierChar (Char.ofNat n) = false := by decide
  have hfalse := table c.toNat (List.mem_range.2 hlt)
  rw [Char.ofNat_toNat, h] at hfalse
  cases hfalse

/-- Nothing in an identifier is escaped. -/
theorem IsIdentifier.toList_quoted {text : String} (h : IsIdentifier text) :
    (quoted text).toList = '"' :: text.toList ++ ['"'] := by
  have hself : ∀ c ∈ text.toList, quotedChar c = [c] := by
    intro c hc
    have hspace := not_lt_space_of_isIdentifierChar (h.2 c hc)
    rcases quotedChar_cases c with ⟨letter, -, -, hescaped⟩ | ⟨hlt, -⟩ | ⟨hself, -⟩
    · unfold Json.escaped? at hescaped
      split at hescaped <;> first
        | (cases hescaped; exact absurd hc (h.not_mem (by decide)))
        | cases hescaped
    · exact absurd hlt hspace
    · exact hself
  rw [Text.toList_quoted, List.flatMap_def, List.map_congr_left hself, ← List.flatMap_def,
    List.flatMap_singleton']

theorem IsIdentifier.oneLine_quoted {text : String} (h : IsIdentifier text) :
    OneLine (quoted text) := by
  rw [oneLine_quoted_iff]
  intro c hc
  refine Bool.eq_false_iff.2 fun hbreak => ?_
  have hline := h.oneLine c hc
  rw [(quotedChar_of_isUnescapedBreak hbreak).2] at hline
  cases hline

end ApiScribe.Text
