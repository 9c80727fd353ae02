set_option autoImplicit false

/-! # Lines

Two notions of a line meet in this library. `splitLines` cuts at every character that ends a line
in any convention and takes CR LF for one break; generated class members are re-indented along
these lines. `unifyNewlines` knows only CR and LF and turns every CR LF and every lone CR into LF;
documents read from files pass through it. -/

namespace ApiScribe.Text

/-! ## Cutting at all line breaks -/

/-- The characters that end a line: LF, VT, FF, CR, the separators U+001C to U+001E, NEL, and the
    line and paragraph separators. -/
def isLineBreak (c : Char) : Bool :=
  c ∈ ['\n', '\x0b', '\x0c', '\r', '\x1c', '\x1d', '\x1e', '\u0085', '\u2028', '\u2029']

/-- The lines of a text without their breaks. A break at the very end opens no further line. -/
def splitLines : List Char → List (List Char)
  | [] => []
  | '\r' :: '\n' :: rest => [] :: splitLines rest
  | c :: rest =>
    if isLineBreak c then [] :: splitLines rest
    else
      match splitLines rest with
      | [] => [[c]]
      | line :: lines => (c :: line) :: lines

theorem not_isLineBreak_of_mem_splitLines {text line : List Char} (h : line ∈ splitLines text) :
    ∀ c ∈ line, isLineBreak c = false := by
  fun_induction splitLines text generalizing line with
  | case1 => simp at h
  | case2 rest ih => grind
  | case3 => grind
  | case4 => grind
  | case5 => grind

/-! ## One newline character -/

/-- Every CR LF and every other CR as LF. -/
def unifyNewlines : List Char → List Char
  | [] => []
  | '\r' :: '\n' :: rest => '\n' :: unifyNewlines rest
  | c :: rest => (if c = '\r' then '\n' else c) :: unifyNewlines rest

theorem not_mem_unifyNewlines (text : List Char) : '\r' ∉ unifyNewlines text := by
  fun_induction unifyNewlines text with
  | case1 => simp
  | case2 rest ih => simp [ih]
  | case3 c rest _ ih => by_cases h : c = '\r' <;> grind

theorem unifyNewlines_eq_self {text : List Char} (h : '\r' ∉ text) : unifyNewlines text = text := by
  fun_induction unifyNewlines text with
  | case1 => rfl
  | case2 rest ih => simp at h
  | case3 c rest _ ih => grind

end ApiScribe.Text
