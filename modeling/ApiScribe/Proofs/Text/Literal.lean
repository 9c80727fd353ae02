import ApiScribe.Json.Reader
import ApiScribe.Proofs.Except
import ApiScribe.Proofs.Text.Lines
import ApiScribe.Text.Quoted

set_option autoImplicit false

/-! # Reading double-quoted literals back

`Text.quoted` and the reader of JSON strings belong together: what the one writes the other reads,
whatever follows the literal (`readText_flatMap_quotedChar`), so that a literal ends where its text
says it ends. Everything about one character is derived from the three forms that a character can
take inside a literal (`quotedChar_cases`). Any other literal, too, is read in the same way whatever
follows it (`readText_append`), although the reader looks ahead for the second half of a pair. -/

namespace ApiScribe.Text

open Json (escaped? escape codeUnit unitSymbol lowHalf? readText)

/-! ## One character -/

/-- A character inside a literal is an escape of one letter, an escape by number, or itself. -/
theorem quotedChar_cases (c : Char) :
    (∃ letter, quotedChar c = ['\\', letter] ∧ letter ≠ 'u' ∧ escaped? letter = some c) ∨
      (c < ' ' ∧ quotedChar c = '\\' :: 'u' :: hexDigits 4 c.toNat) ∨
      (quotedChar c = [c] ∧ c ≠ '"' ∧ c ≠ '\\' ∧ ¬ c < ' ') := by
  unfold quotedChar
  split
  case h_8 _ hquote hback _ _ _ _ _ =>
    by_cases hc : c < ' '
    · exact .inr (.inl ⟨hc, by rw [if_pos hc]⟩)
    · exact .inr (.inr ⟨by rw [if_neg hc], hquote, hback, hc⟩)
  all_goals exact .inl ⟨_, rfl, by decide, rfl⟩

theorem toNat_lt_of_lt_space {c : Char} (h : c < ' ') : c.toNat < 32 := h

/-- The reader takes an escape by number for the control that it writes. -/
theorem escape_control {c : Char} (hc : c < ' ') {rest : List Char} (hrest : rest ≠ []) :
    escape ('u' :: (hexDigits 4 c.toNat ++ rest)) = .ok (.char c, 5) := by
  have hlt : c.toNat < 32 := toNat_lt_of_lt_space hc
  obtain ⟨a, b, d, e, hdigits, hvalue⟩ := hexQuad?_hexDigits (show c.toNat < 0x10000 by omega)
  obtain ⟨next, rest, rfl⟩ := List.exists_cons_of_ne_nil hrest
  have hhigh : Json.isHighHalf c.toNat = false := by simp [Json.isHighHalf]; omega
  have hunit : ¬(0xD800 ≤ c.toNat ∧ c.toNat < 0xE000) := by omega
  simp [escape, codeUnit, hdigits, hvalue, hhigh, hunit, unitSymbol, Char.ofNat_toNat, bind,
    Except.bind, pure, Except.pure]

/-- Reading takes the written form of a character for the character. -/
theorem readText_quotedChar (opening : List Char) (done : List Symbol) (c : Char)
    {rest : List Char} (hrest : rest ≠ []) :
    readText opening 0 done (quotedChar c ++ rest) = readText opening 0 (.char c :: done) rest := by
  rcases quotedChar_cases c with ⟨letter, h, hletter, hescaped⟩ | ⟨hc, h⟩ | ⟨h, hquote, hback, hc⟩
  · have hescape : escape (letter :: rest) = .ok (.char c, 1) := by
      unfold escape
      split
      · simp_all
      · simp_all
      · next heq => simp_all
    simp [h, readText, hescape]
  · obtain ⟨a, b, d, e, hdigits, -⟩ :=
      hexQuad?_hexDigits (show c.toNat < 0x10000 by have := toNat_lt_of_lt_space hc; omega)
    have hescape := escape_control hc hrest
    rw [hdigits] at hescape
    simp only [List.cons_append, List.nil_append] at hescape
    simp [h, hdigits, readText, hescape]
  · simp [h, readText, hquote, hback, hc]

/-! ## Whole literals -/

/-- **Reading a literal.** After its opening quote a literal is read to its closing quote, and what
    follows is left. -/
theorem readText_flatMap_quotedChar (opening : List Char) (done : List Symbol)
    (text rest : List Char) :
    readText opening 0 done (text.flatMap quotedChar ++ '"' :: rest) =
      .ok (⟨done.reverse ++ text.map .char⟩, rest) := by
  induction text generalizing done with
  | nil => simp [readText]
  | cons c text ih =>
    rw [List.flatMap_cons, List.append_assoc, readText_quotedChar _ _ _ (by simp), ih]
    simp

/-- A literal on its own is a JSON text, and its value is what was quoted. -/
theorem read_quoted (text : String) : Json.read (quoted text) = .ok (.string (.ofString text)) := by
  have hread : ∀ fuel, Json.readValue (fuel + 1) (quoted text).toList =
      .ok (.string (.ofString text), []) := by
    intro fuel
    rw [toList_quoted, List.cons_append, Json.readValue, readText_flatMap_quotedChar]
    rfl
  have hblank : Json.skipBlanks (quoted text).toList = (quoted text).toList := by
    simp [toList_quoted, Json.skipBlanks, Json.isBlank]
  have hall : Json.readAll (quoted text).toList = .ok (.string (.ofString text)) := by
    unfold Json.readAll
    split
    · next heq => simp [toList_quoted] at heq
    · rw [hblank, hread]
      rfl
  rw [Json.read, hall]
  rfl

/-! ## Literals with text behind them -/

theorem codeUnit_eq_ok {start text : List Char} {unit : Nat} (h : codeUnit start text = .ok unit) :
    5 ≤ text.length ∧ ∀ start' tail, codeUnit start' (text ++ tail) = .ok unit := by
  unfold codeUnit at h
  split at h
  · next a b c d e rest =>
    split at h
    · next value hvalue =>
      obtain rfl := Except.ok.inj h
      exact ⟨by simp, fun start' tail => by simp [codeUnit, hvalue]⟩
    · cases h
  · cases h

theorem escape_letter {c : Char} (hc : c ≠ 'u') (rest : List Char) :
    escape (c :: rest) = match escaped? c with
      | some escaped => .ok (.char escaped, 1)
      | none => Json.refuse .invalidEscape ('\\' :: c :: rest) := by
  unfold escape
  split
  · next heq => cases heq
  · next heq => exact absurd (List.cons.inj heq).1 hc
  · next heq =>
    obtain ⟨rfl, rfl⟩ := List.cons.inj heq
    rfl

/-- An escape by number as a chain of three steps. -/
theorem escape_unit (rest : List Char) :
    escape ('u' :: rest) = codeUnit ('u' :: rest) rest >>= fun unit =>
      (if Json.isHighHalf unit then lowHalf? (rest.drop 4) else .ok none) >>= fun low =>
        .ok (match low with
          | some low => (Json.pairSymbol unit low, 11)
          | none => (unitSymbol unit, 5)) := by
  rw [escape]
  refine congrArg _ (funext fun unit => ?_)
  by_cases hhigh : Json.isHighHalf unit = true
  · rw [if_pos hhigh, if_pos hhigh]
    refine congrArg _ (funext fun low => ?_)
    cases low <;> rfl
  · rw [if_neg hhigh, if_neg hhigh]
    rfl

/-- Where reading succeeds, an escape by number has all the characters that it needs. -/
theorem length_of_readText_unit {opening rest : List Char} {done : List Symbol}
    {result : LooseText × List Char}
    (h : readText opening 0 done ('\\' :: 'u' :: rest) = .ok result) : 5 ≤ rest.length := by
  simp only [readText, List.isEmpty_cons, Bool.false_eq_true, ↓reduceIte, Char.reduceEq] at h
  split at h
  · cases h
  · next symbol length hescape =>
    rw [escape_unit] at hescape
    obtain ⟨unit, hunit, -⟩ := bind_eq_ok.1 hescape
    exact (codeUnit_eq_ok hunit).1

/-- Whether the second half of a pair follows does not depend on what is behind a literal that is
    read to its end. -/
theorem lowHalf?_append {text : List Char} {low : Option Nat} (h : lowHalf? text = .ok low)
    (hread : low = none → ∃ opening done result, readText opening 0 done text = .ok result)
    (tail : List Char) :
    lowHalf? (text ++ tail) = .ok low := by
  unfold lowHalf? at h
  split at h
  · next rest =>
    split at h
    · next hshort =>
      obtain rfl := Except.ok.inj h
      obtain ⟨opening, done, result, hresult⟩ := hread rfl
      exact absurd (length_of_readText_unit hresult) (by omega)
    · next hlong =>
      obtain ⟨unit, hunit, h⟩ := bind_eq_ok.1 h
      have hlong' : ¬ (rest ++ tail).length < 5 := by
        rw [List.length_append]
        omega
      rw [List.cons_append, List.cons_append, lowHalf?, if_neg hlong']
      exact bind_eq_ok.2 ⟨unit, (codeUnit_eq_ok hunit).2 _ tail, h⟩
  · next hother =>
    obtain rfl := Except.ok.inj h
    obtain ⟨opening, done, result, hresult⟩ := hread rfl
    unfold lowHalf?
    split
    · next rest' heq =>
      -- the tail would have to complete an escape that the text leaves off in the middle
      match text, hresult with
      | [], hresult => simp [readText, Json.refuse] at hresult
      | [c], hresult =>
        obtain rfl : c = '\\' := (List.cons.inj heq).1
        simp [readText, Json.refuse] at hresult
      | c :: next :: rest, _ =>
        have hc : c = '\\' := (List.cons.inj heq).1
        have hnext : next = 'u' := (List.cons.inj (List.cons.inj heq).2).1
        exact (hother rest (by rw [hc, hnext])).elim
    · rfl

/-- An escape of a literal that is read to its end does not depend on what is behind the literal. -/
theorem escape_append {opening text : List Char} {done : List Symbol} {symbol : Symbol}
    {length : Nat} {result : LooseText × List Char} (h : escape text = .ok (symbol, length))
    (hread : readText opening length done text = .ok result) (tail : List Char) :
    escape (text ++ tail) = .ok (symbol, length) := by
  cases text with
  | nil => cases h
  | cons c rest =>
  rw [List.cons_append]
  by_cases hc : c = 'u'
  · subst hc
    rw [escape_unit] at h
    obtain ⟨unit, hunit, h⟩ := bind_eq_ok.1 h
    obtain ⟨low, hlow, h⟩ := bind_eq_ok.1 h
    obtain ⟨hlength, hunit'⟩ := codeUnit_eq_ok hunit
    have hdrop : (rest ++ tail).drop 4 = rest.drop 4 ++ tail :=
      List.drop_append_of_le_length (by omega)
    have hlow' : (if Json.isHighHalf unit then lowHalf? ((rest ++ tail).drop 4) else .ok none) =
        .ok low := by
      rw [hdrop]
      split at hlow
      · next hhigh =>
        rw [if_pos hhigh]
        refine lowHalf?_append hlow (fun hnone => ?_) tail
        subst hnone
        obtain ⟨-, rfl⟩ := Prod.mk.inj (Except.ok.inj h)
        -- the literal goes on right behind the four digits
        match rest, hlength, hread with
        | a :: b :: c :: d :: e :: rest, _, hread =>
          exact ⟨opening, _, result, by simpa [readText] using hread⟩
      · next hhigh => rw [if_neg hhigh]; exact hlow
    rw [escape_unit]
    exact bind_eq_ok.2 ⟨unit, hunit' _ tail, bind_eq_ok.2 ⟨low, hlow', h⟩⟩
  · rw [escape_letter hc] at h ⊢
    cases hescaped : escaped? c with
    | none => simp [hescaped, Json.refuse] at h
    | some escaped => simpa [hescaped] using h

/-- **What follows a literal** plays no part in how it is read. -/
theorem readText_append {opening text rest : List Char} {skip : Nat} {done : List Symbol}
    {content : LooseText} (h : readText opening skip done text = .ok (content, rest))
    (opening' tail : List Char) :
    readText opening' skip done (text ++ tail) = .ok (content, rest ++ tail) := by
  induction text generalizing skip done with
  | nil => simp [readText, Json.refuse] at h
  | cons c text ih =>
    cases skip with
    | succ skip => exact ih (by simpa [readText] using h)
    | zero =>
      rw [readText] at h
      rw [List.cons_append, readText]
      split at h
      · next hquote =>
        obtain ⟨rfl, rfl⟩ := Prod.mk.inj (Except.ok.inj h)
        rw [if_pos hquote]
      next hquote =>
      rw [if_neg hquote]
      split at h
      · next hback =>
        rw [if_pos hback]
        split at h
        · cases h
        next hempty =>
        have hempty' : ¬ (text ++ tail).isEmpty = true := by simp_all
        rw [if_neg hempty']
        split at h
        · cases h
        next escaped length hescape =>
        rw [escape_append hescape h tail]
        exact ih h
      next hback =>
      rw [if_neg hback]
      split at h
      · cases h
      · next hspace =>
        rw [if_neg hspace]
        exact ih h

/-! ## Line breaks inside literals -/

/-- The line breaks that a literal holds as they are: NEL, and the line and paragraph separators. -/
def isUnescapedBreak (c : Char) : Bool := c ∈ ['\u0085', '\u2028', '\u2029']

theorem mem_hexDigits {width n : Nat} {c : Char} (h : c ∈ hexDigits width n) :
    ∃ d < 16, c = Nat.digitChar d := by
  induction width generalizing n with
  | zero => simp [hexDigits] at h
  | succ width ih =>
    rcases List.mem_append.1 h with h | h
    · exact ih h
    · exact ⟨n % 16, Nat.mod_lt _ (by decide), List.mem_singleton.1 h⟩

theorem not_isLineBreak_of_mem_hexDigits {width n : Nat} {c : Char} (h : c ∈ hexDigits width n) :
    isLineBreak c = false := by
  obtain ⟨d, hd, rfl⟩ := mem_hexDigits h
  have table : ∀ d ∈ List.range 16, isLineBreak (Nat.digitChar d) = false := by decide
  exact table d (List.mem_range.2 hd)

theorem not_isLineBreak_of_escaped? {letter c : Char} (h : escaped? letter = some c) :
    isLineBreak letter = false := by
  unfold escaped? at h
  split at h <;> first | decide | simp at h

/-- A line break inside a literal is a character of the text that is not escaped. -/
theorem isUnescapedBreak_of_mem_quotedChar {c d : Char} (hmem : d ∈ quotedChar c)
    (hbreak : isLineBreak d = true) : isUnescapedBreak c = true := by
  rcases quotedChar_cases c with ⟨letter, h, -, hescaped⟩ | ⟨-, h⟩ | ⟨h, -, -, hc⟩
  · have hletter := not_isLineBreak_of_escaped? hescaped
    rw [h] at hmem
    rcases List.mem_cons.1 hmem with rfl | hmem
    · exact absurd hbreak (by decide)
    · rw [List.mem_singleton.1 hmem, hletter] at hbreak
      exact absurd hbreak (by decide)
  · rw [h, List.mem_cons, List.mem_cons] at hmem
    rcases hmem with rfl | rfl | hmem
    · exact absurd hbreak (by decide)
    · exact absurd hbreak (by decide)
    · simp [not_isLineBreak_of_mem_hexDigits hmem] at hbreak
  · rw [h, List.mem_singleton] at hmem
    subst hmem
    simp only [isLineBreak, List.mem_cons, List.not_mem_nil, or_false, decide_eq_true_eq] at hbreak
    simp only [isUnescapedBreak, List.mem_cons, List.not_mem_nil, or_false, decide_eq_true_eq]
    -- every other break is a control, and those are escaped
    rcases hbreak with rfl | rfl | rfl | rfl | rfl | rfl | rfl | hbreak <;>
      first | exact absurd (by decide) hc | exact hbreak

theorem quotedChar_of_isUnescapedBreak {c : Char} (h : isUnescapedBreak c = true) :
    quotedChar c = [c] ∧ isLineBreak c = true := by
  simp only [isUnescapedBreak, List.mem_cons, List.not_mem_nil, or_false, decide_eq_true_eq] at h
  rcases h with rfl | rfl | rfl <;> decide

/-- These breaks are no CR, so each of them makes a line of its own. -/
theorem isLineBreak_of_isUnescapedBreak {c : Char} (h : isUnescapedBreak c = true) :
    (isLineBreak c && c != '\r') = true := by
  simp only [isUnescapedBreak, List.mem_cons, List.not_mem_nil, or_false, decide_eq_true_eq] at h
  rcases h with rfl | rfl | rfl <;> decide

theorem mem_quoted_of_isUnescapedBreak {text : String} {c : Char} (hc : c ∈ text.toList)
    (hbreak : isUnescapedBreak c = true) : c ∈ (quoted text).toList := by
  have hself := (quotedChar_of_isUnescapedBreak hbreak).1
  rw [toList_quoted]
  exact List.mem_append_left _
    (List.mem_cons_of_mem _ (List.mem_flatMap.2 ⟨c, hc, by simp [hself]⟩))

/-- A literal stays on one line exactly when its text has no break that a literal holds as it
    is. -/
theorem oneLine_quoted_iff (text : String) :
    OneLine (quoted text) ↔ ∀ c ∈ text.toList, isUnescapedBreak c = false := by
  constructor
  · intro h c hc
    refine Bool.eq_false_iff.2 fun hbreak => ?_
    have hline := h c (mem_quoted_of_isUnescapedBreak hc hbreak)
    rw [(quotedChar_of_isUnescapedBreak hbreak).2] at hline
    cases hline
  · intro h d hd
    refine Bool.eq_false_iff.2 fun hbreak => ?_
    rw [toList_quoted, List.cons_append, List.mem_cons, List.mem_append, List.mem_flatMap,
      List.mem_singleton] at hd
    rcases hd with rfl | ⟨c, hc, hmem⟩ | rfl
    · exact absurd hbreak (by decide)
    · have hc' := isUnescapedBreak_of_mem_quotedChar hmem hbreak
      exact absurd (h c hc) (by simp [hc'])
    · exact absurd hbreak (by decide)

end ApiScribe.Text
