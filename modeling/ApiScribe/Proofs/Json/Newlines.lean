import ApiScribe.Proofs.Json.Grammar
import ApiScribe.Proofs.Text.Literal
import ApiScribe.Proofs.Text.Newlines
import Mathlib.Data.List.Find

set_option autoImplicit false

/-! # Newlines in JSON texts

Two texts that differ in their newlines only are read in the same way: one gives a value exactly if
the other does, and the value is the same (`read_eq_ok_of_sameButNewlines`). Between tokens a newline
is a blank like any other, and everywhere else it ends what is read, in a string literal with a
fault. So what one text has at a place, the other has there too, up to the next newline.

The lengths of the texts may differ, and the reader looks at a length in one case, where it decides
by the number of characters left whether the second half of a surrogate pair can follow. Where it
decides against that for want of characters, the literal has no end, so this plays no part in what
is accepted (`lowHalf?_of_sameButNewlines`). -/

namespace ApiScribe.Json

open Text (SameButNewlines isNewline unifyNewlines)

/-! ## Blanks -/

theorem skipBlanks_unifyNewlines (text : List Char) :
    skipBlanks (unifyNewlines text) = unifyNewlines (skipBlanks text) := by
  have hblank : ∀ {c : Char}, isBlank c = true → ∀ rest, skipBlanks (c :: rest) = skipBlanks rest :=
    fun hc rest => List.dropWhile_cons_of_pos hc
  have hplain : ∀ {c : Char}, isBlank c = false → ∀ rest, skipBlanks (c :: rest) = c :: rest :=
    fun hc rest => List.dropWhile_cons_of_neg (by simp [hc])
  have hlf : isBlank '\n' = true := by decide
  have hcr : isBlank '\r' = true := by decide
  fun_induction unifyNewlines text with
  | case1 => rfl
  | case2 rest ih => rw [hblank hlf, hblank hcr, hblank hlf, ih]
  | case3 c rest _ ih =>
    by_cases hc : c = '\r'
    · rw [if_pos hc, hblank hlf, hc, hblank hcr, ih]
    rw [if_neg hc]
    by_cases hb : isBlank c = true
    · rw [hblank hb, hblank hb, ih]
    · rw [Bool.not_eq_true] at hb
      rw [hplain hb, hplain hb, Text.unifyNewlines_cons hc]

theorem skipBlanks_sameButNewlines {a b : List Char} (h : SameButNewlines a b) :
    SameButNewlines (skipBlanks a) (skipBlanks b) := by
  unfold SameButNewlines at h ⊢
  rw [← skipBlanks_unifyNewlines, ← skipBlanks_unifyNewlines, h]

/-- Behind the blanks both texts have the same character, if it is no newline. -/
theorem exists_skipBlanks_eq_cons {c : Char} (hc : isNewline c = false) {a b rest : List Char}
    (h : SameButNewlines a b) (ha : skipBlanks a = c :: rest) :
    ∃ rest', skipBlanks b = c :: rest' ∧ SameButNewlines rest rest' := by
  have hskipped := skipBlanks_sameButNewlines h
  rw [ha] at hskipped
  exact hskipped.of_cons hc

/-! ## String literals -/

theorem isNewline_eq_false_of_hexValue? {c : Char} {value : Nat}
    (h : Text.hexValue? c = some value) : isNewline c = false := by
  refine Bool.eq_false_iff.2 fun hnewline => ?_
  have hnone : Text.hexValue? '\n' = none ∧ Text.hexValue? '\r' = none := by decide
  simp only [isNewline, Bool.or_eq_true, decide_eq_true_eq] at hnewline
  rcases hnewline with rfl | rfl
  · rw [hnone.1] at h
    cases h
  · rw [hnone.2] at h
    cases h

/-- A code unit is written by four characters, none of them a newline, and needs another one. -/
theorem exists_digits_of_codeUnit {start text : List Char} {unit : Nat}
    (h : codeUnit start text = .ok unit) :
    ∃ digits rest, text = digits ++ rest ∧ digits.length = 4 ∧ rest ≠ [] ∧
      (∀ c ∈ digits, isNewline c = false) ∧
      ∀ start' rest', rest' ≠ [] → codeUnit start' (digits ++ rest') = .ok unit := by
  unfold codeUnit at h
  split at h
  · next a b c d e rest =>
    split at h
    · next value hvalue =>
      obtain rfl := Except.ok.inj h
      refine ⟨[a, b, c, d], e :: rest, rfl, rfl, by simp, ?_, ?_⟩
      · have hquad := hvalue
        simp only [Text.hexQuad?, Option.bind_eq_bind, Option.bind_eq_some_iff] at hquad
        obtain ⟨_, ha, _, hb, _, hc, _, hd, -⟩ := hquad
        intro x hx
        simp only [List.mem_cons, List.not_mem_nil, or_false] at hx
        rcases hx with rfl | rfl | rfl | rfl
        · exact isNewline_eq_false_of_hexValue? ha
        · exact isNewline_eq_false_of_hexValue? hb
        · exact isNewline_eq_false_of_hexValue? hc
        · exact isNewline_eq_false_of_hexValue? hd
      · intro start' rest' hrest'
        obtain ⟨next, more, rfl⟩ := List.exists_cons_of_ne_nil hrest'
        simp [codeUnit, hvalue]
    · cases h
  · cases h

/-- A code unit stands in both texts. -/
theorem codeUnit_of_sameButNewlines {start a b : List Char} {unit : Nat}
    (h : codeUnit start a = .ok unit) (hab : SameButNewlines a b) :
    (∀ start', codeUnit start' b = .ok unit) ∧ (∀ c ∈ a.take 4, isNewline c = false) ∧
      SameButNewlines (a.drop 4) (b.drop 4) := by
  obtain ⟨digits, rest, rfl, hlength, hrest, hdigits, hunit⟩ := exists_digits_of_codeUnit h
  obtain ⟨rest', rfl, hsame⟩ := hab.of_append hdigits
  have hrest' : rest' ≠ [] := by
    intro hnil
    subst hnil
    exact hrest hsame.symm.of_nil
  refine ⟨fun start' => hunit start' rest' hrest', ?_, ?_⟩
  · rw [List.take_left' hlength]
    exact hdigits
  · rw [List.drop_left' hlength, List.drop_left' hlength]
    exact hsame

/-- Whether the second half of a pair follows is the same in both texts, where the first is read to
    the end of the literal. -/
theorem lowHalf?_of_sameButNewlines {a b : List Char} {low : Option Nat}
    (h : lowHalf? a = .ok low)
    (hread : low = none → ∃ opening done result, readText opening 0 done a = .ok result)
    (hab : SameButNewlines a b) :
    lowHalf? b = .ok low ∧ (low ≠ none → ∀ c ∈ a.take 6, isNewline c = false) := by
  unfold lowHalf? at h
  split at h
  · next rest =>
    have hescape : ∀ c ∈ ['\\', 'u'], isNewline c = false := by simp [isNewline]
    obtain ⟨rest', rfl, hsame⟩ := hab.of_append hescape
    split at h
    · next hshort =>
      obtain rfl := Except.ok.inj h
      obtain ⟨opening, done, result, hresult⟩ := hread rfl
      exact absurd (Text.length_of_readText_unit hresult) (by omega)
    · obtain ⟨unit, hunit, hlow⟩ := bind_eq_ok.1 h
      obtain ⟨hunit', hdigits, -⟩ := codeUnit_of_sameButNewlines hunit hsame
      have hlong : ¬rest'.length < 5 := by
        have hle := (Text.codeUnit_eq_ok (hunit' [])).1
        omega
      refine ⟨?_, fun _ c hc => ?_⟩
      · rw [List.cons_append, List.cons_append, List.nil_append, lowHalf?, if_neg hlong]
        exact bind_eq_ok.2 ⟨unit, hunit' _, hlow⟩
      · have htake : ('\\' :: 'u' :: rest).take 6 = ['\\', 'u'] ++ rest.take 4 := rfl
        rw [htake] at hc
        rcases List.mem_append.1 hc with hc | hc
        · exact hescape c hc
        · exact hdigits c hc
  · next hother =>
    obtain rfl := Except.ok.inj h
    refine ⟨?_, fun hne => absurd rfl hne⟩
    unfold lowHalf?
    split
    · next rest =>
      -- the second text has an escape here, so the first one does
      have hescape : ∀ c ∈ ['\\', 'u'], isNewline c = false := by simp [isNewline]
      obtain ⟨rest', rfl, -⟩ := hab.symm.of_append hescape
      exact absurd rfl (hother rest')
    · rfl

/-- Characters that belong to an escape are passed over. -/
theorem readText_drop (opening : List Char) (done : List Symbol) (skip : Nat) (text : List Char) :
    readText opening skip done text = readText opening 0 done (text.drop skip) := by
  induction text generalizing skip with
  | nil => simp [readText]
  | cons c text ih =>
    cases skip with
    | zero => rfl
    | succ skip => simpa [readText] using ih skip

theorem isNewline_eq_false_of_escaped? {letter c : Char} (h : escaped? letter = some c) :
    isNewline letter = false := by
  unfold escaped? at h
  split at h <;> first | decide | cases h

/-- A code unit or a pair of them, in a literal that is read to its end. -/
theorem escapeUnit_of_sameButNewlines {opening a b : List Char} {done : List Symbol}
    {symbol : Symbol} {length : Nat} {result : LooseText × List Char}
    (h : escape ('u' :: a) = .ok (symbol, length))
    (hread : readText opening length done ('u' :: a) = .ok result) (hab : SameButNewlines a b) :
    escape ('u' :: b) = .ok (symbol, length) ∧
      ∀ c ∈ ('u' :: a).take length, isNewline c = false := by
  rw [Text.escape_unit] at h ⊢
  obtain ⟨unit, hunit, h⟩ := bind_eq_ok.1 h
  obtain ⟨low, hlow, h⟩ := bind_eq_ok.1 h
  obtain ⟨hunit', hdigits, hbehind⟩ := codeUnit_of_sameButNewlines hunit hab
  have hreadable : low = none →
      ∃ opening done result, readText opening 0 done (a.drop 4) = .ok result := by
    rintro rfl
    obtain ⟨-, rfl⟩ := Prod.mk.inj (Except.ok.inj h)
    rw [readText_drop] at hread
    exact ⟨opening, done, result, hread⟩
  have hlow' : (if isHighHalf unit then lowHalf? (b.drop 4) else .ok none) = .ok low ∧
      (low ≠ none → ∀ c ∈ (a.drop 4).take 6, isNewline c = false) := by
    split at hlow
    · next hhigh =>
      rw [if_pos hhigh]
      exact lowHalf?_of_sameButNewlines hlow hreadable hbehind
    · next hhigh =>
      obtain rfl := Except.ok.inj hlow
      rw [if_neg hhigh]
      exact ⟨rfl, fun hne => absurd rfl hne⟩
  refine ⟨bind_eq_ok.2 ⟨unit, hunit' _, bind_eq_ok.2 ⟨low, hlow'.1, h⟩⟩, ?_⟩
  -- five characters, or eleven with the second half
  have hfive : ∀ c ∈ 'u' :: a.take 4, isNewline c = false := by
    intro c hc
    rcases List.mem_cons.1 hc with rfl | hc
    · decide
    · exact hdigits c hc
  cases low with
  | none =>
    obtain ⟨-, rfl⟩ := Prod.mk.inj (Except.ok.inj h)
    exact hfive
  | some low =>
    obtain ⟨-, rfl⟩ := Prod.mk.inj (Except.ok.inj h)
    have htake : ('u' :: a).take 11 = 'u' :: a.take 4 ++ (a.drop 4).take 6 := by
      rw [List.take_succ_cons, List.cons_append, ← List.take_add]
    intro c hc
    rw [htake] at hc
    rcases List.mem_append.1 hc with hc | hc
    · exact hfive c hc
    · exact hlow'.2 (by simp) c hc

/-- An escape of a literal that is read to its end stands in both texts, and has no newline. -/
theorem escape_of_sameButNewlines {opening a b : List Char} {done : List Symbol} {symbol : Symbol}
    {length : Nat} {result : LooseText × List Char} (h : escape a = .ok (symbol, length))
    (hread : readText opening length done a = .ok result) (hab : SameButNewlines a b) :
    escape b = .ok (symbol, length) ∧ ∀ c ∈ a.take length, isNewline c = false := by
  cases a with
  | nil => cases h
  | cons letter rest =>
  by_cases hletter : letter = 'u'
  · subst hletter
    obtain ⟨rest', rfl, hsame⟩ := hab.of_cons (by decide)
    exact escapeUnit_of_sameButNewlines h hread hsame
  · rw [Text.escape_letter hletter] at h
    cases hescaped : escaped? letter with
    | none => simp [hescaped, refuse] at h
    | some escaped =>
      have hplain := isNewline_eq_false_of_escaped? hescaped
      obtain ⟨rest', rfl, -⟩ := hab.of_cons hplain
      rw [hescaped] at h
      obtain ⟨hsymbol, rfl⟩ := Prod.mk.inj (Except.ok.inj h)
      rw [Text.escape_letter hletter, hescaped, ← hsymbol]
      exact ⟨rfl, by simpa using hplain⟩

/-- **String literals.** A literal that is read to its end in one text is read in the other, and it
    has the same content. -/
theorem readText_of_sameButNewlines {opening a b rest : List Char} {skip : Nat}
    {done : List Symbol} {content : LooseText}
    (h : readText opening skip done a = .ok (content, rest)) (hab : SameButNewlines a b)
    (hskip : ∀ c ∈ a.take skip, isNewline c = false) (opening' : List Char) :
    ∃ rest', readText opening' skip done b = .ok (content, rest') ∧ SameButNewlines rest rest' := by
  induction a generalizing skip done b with
  | nil => simp [readText, refuse] at h
  | cons c a ih =>
    cases skip with
    | succ skip =>
      rw [List.take_succ_cons] at hskip
      obtain ⟨b', rfl, hsame⟩ := hab.of_cons (hskip c (List.mem_cons_self ..))
      rw [readText] at h ⊢
      exact ih h hsame fun x hx => hskip x (List.mem_cons_of_mem _ hx)
    | zero =>
      rw [readText] at h
      split at h
      · next hquote =>
        obtain ⟨rfl, rfl⟩ := Prod.mk.inj (Except.ok.inj h)
        obtain ⟨b', rfl, hsame⟩ := hab.of_cons (by rw [hquote]; decide)
        exact ⟨b', by simp [readText, hquote], hsame⟩
      next hquote =>
      split at h
      · next hback =>
        split at h
        · cases h
        next hempty =>
        split at h
        · cases h
        next escaped length hescape =>
        obtain ⟨b', rfl, hsame⟩ := hab.of_cons (by rw [hback]; decide)
        obtain ⟨hescape', hplain⟩ := escape_of_sameButNewlines hescape h hsame
        obtain ⟨rest', hrest', hbehind⟩ := ih h hsame hplain
        refine ⟨rest', ?_, hbehind⟩
        rw [readText, if_neg hquote, if_pos hback, if_neg (by rwa [← hsame.isEmpty_eq]), hescape']
        exact hrest'
      next hback =>
      split at h
      · cases h
      next hspace =>
      -- a newline is a control character, and these are refused
      have hplain : isNewline c = false := by
        refine Bool.eq_false_iff.2 fun hnewline => hspace ?_
        simp only [isNewline, Bool.or_eq_true, decide_eq_true_eq] at hnewline
        rcases hnewline with rfl | rfl <;> decide
      obtain ⟨b', rfl, hsame⟩ := hab.of_cons hplain
      obtain ⟨rest', hrest', hbehind⟩ := ih h hsame (by simp)
      refine ⟨rest', ?_, hbehind⟩
      rw [readText, if_neg hquote, if_neg hback, if_neg hspace]
      exact hrest'

/-! ## Numbers and words -/

theorem isDigit_eq_false_of_isNewline (c : Char) (h : isNewline c = true) : c.isDigit = false := by
  simp only [isNewline, Bool.or_eq_true, decide_eq_true_eq] at h
  rcases h with rfl | rfl <;> decide

theorem isNewline_eq_false_of_mem_digits (text : List Char) :
    ∀ c ∈ text.takeWhile Char.isDigit, isNewline c = false := by
  intro c hc
  have hdigit : c.isDigit = true := List.all_eq_true.1 List.all_takeWhile c hc
  refine Bool.eq_false_iff.2 fun hnewline => ?_
  rw [isDigit_eq_false_of_isNewline c hnewline] at hdigit
  cases hdigit

/-- Both texts go on in the same way behind the digits at their start. -/
theorem drop_digits {a b : List Char} (h : SameButNewlines a b) :
    SameButNewlines (a.drop (a.takeWhile Char.isDigit).length)
      (b.drop (b.takeWhile Char.isDigit).length) := by
  rw [← h.takeWhile_eq isDigit_eq_false_of_isNewline]
  exact h.drop_length (isNewline_eq_false_of_mem_digits a) (List.takeWhile_prefix _)

theorem wholeDigits_eq {a b : List Char} (h : SameButNewlines a b) :
    wholeDigits a = wholeDigits b := by
  obtain ⟨a', b', rfl, rfl, -⟩ | ⟨ha, hb⟩ := h.head_cases (show isNewline '0' = false by decide)
  · rfl
  · rw [wholeDigits, wholeDigits, h.takeWhile_eq isDigit_eq_false_of_isNewline]
    · exact hb
    · exact ha

theorem isNewline_eq_false_of_mem_wholeDigits (text : List Char) :
    ∀ c ∈ wholeDigits text, isNewline c = false := by
  unfold wholeDigits
  split
  · simp [isNewline]
  · exact isNewline_eq_false_of_mem_digits text

theorem wholeDigits_isPrefix (text : List Char) : wholeDigits text <+: text := by
  unfold wholeDigits
  split
  · next rest => exact ⟨rest, rfl⟩
  · exact List.takeWhile_prefix _

theorem fraction_of_sameButNewlines {a b : List Char} (h : SameButNewlines a b) :
    fractionDigits a = fractionDigits b ∧ SameButNewlines (skipFraction a) (skipFraction b) := by
  obtain ⟨a', b', rfl, rfl, hsame⟩ | ⟨ha, hb⟩ := h.head_cases (show isNewline '.' = false by decide)
  · have hdigits : fractionDigits ('.' :: a') = fractionDigits ('.' :: b') :=
      hsame.takeWhile_eq isDigit_eq_false_of_isNewline
    refine ⟨hdigits, ?_⟩
    unfold skipFraction
    rw [← hdigits]
    dsimp only
    split
    · exact h
    · rw [List.drop_succ_cons, List.drop_succ_cons]
      have hbehind := drop_digits hsame
      rwa [← hsame.takeWhile_eq isDigit_eq_false_of_isNewline] at hbehind
  · have hnone : ∀ {text : List Char}, (∀ rest, text ≠ '.' :: rest) → fractionDigits text = [] := by
      intro text htext
      unfold fractionDigits
      split
      · next rest => exact absurd rfl (htext rest)
      · rfl
    unfold skipFraction
    rw [hnone ha, hnone hb]
    exact ⟨rfl, h⟩

theorem minusSign_of_sameButNewlines {a b : List Char} (h : SameButNewlines a b) :
    (minusSign a).1 = (minusSign b).1 ∧ SameButNewlines (minusSign a).2 (minusSign b).2 := by
  obtain ⟨a', b', rfl, rfl, hsame⟩ | ⟨ha, hb⟩ := h.head_cases (show isNewline '-' = false by decide)
  · exact ⟨rfl, hsame⟩
  · rw [minusSign, minusSign]
    · exact ⟨rfl, h⟩
    · exact hb
    · exact ha

theorem exponentSign_of_sameButNewlines {a b : List Char} (h : SameButNewlines a b) :
    (exponentSign a).1 = (exponentSign b).1 ∧
      SameButNewlines (exponentSign a).2 (exponentSign b).2 := by
  obtain ⟨a', b', rfl, rfl, hsame⟩ | ⟨ha, hb⟩ := h.head_cases (show isNewline '-' = false by decide)
  · exact ⟨rfl, hsame⟩
  obtain ⟨a', b', rfl, rfl, hsame⟩ | ⟨ha', hb'⟩ :=
    h.head_cases (show isNewline '+' = false by decide)
  · exact ⟨rfl, hsame⟩
  · rw [exponentSign, exponentSign]
    · exact ⟨rfl, h⟩
    · exact hb
    · exact hb'
    · exact ha
    · exact ha'

theorem exponent?_of_sameButNewlines {a b rest : List Char} {exponent : Int}
    (h : exponent? a = some (exponent, rest)) (hab : SameButNewlines a b) :
    ∃ rest', exponent? b = some (exponent, rest') ∧ SameButNewlines rest rest' := by
  cases a with
  | nil => cases h
  | cons mark a =>
    by_cases hmark : mark = 'e' ∨ mark = 'E'
    · have hplain : isNewline mark = false := by
        rcases hmark with rfl | rfl <;> decide
      obtain ⟨b', rfl, hsame⟩ := hab.of_cons hplain
      obtain ⟨hsign, hbody⟩ := exponentSign_of_sameButNewlines hsame
      have hdigits := hbody.takeWhile_eq isDigit_eq_false_of_isNewline
      have hbehind := drop_digits hbody
      rw [exponent?, if_pos hmark] at h ⊢
      dsimp only at h ⊢
      rw [← hsign, ← hdigits]
      rw [← hdigits] at hbehind
      split at h
      · cases h
      next hnonempty =>
      rw [if_neg hnonempty]
      obtain ⟨hvalue, rfl⟩ := Prod.mk.inj (Option.some.inj h)
      exact ⟨_, by rw [hvalue], hbehind⟩
    · rw [exponent?, if_neg hmark] at h
      cases h

theorem exponent?_eq_none {a b : List Char} (h : exponent? a = none) (hab : SameButNewlines a b) :
    exponent? b = none := by
  cases hb : exponent? b with
  | none => rfl
  | some read =>
    obtain ⟨rest, ha, -⟩ := exponent?_of_sameButNewlines hb hab.symm
    rw [h] at ha
    cases ha

/-- **Numbers.** A number of one text stands in the other. -/
theorem number?_of_sameButNewlines {a b rest : List Char} {value : Number}
    (h : number? a = some (value, rest)) (hab : SameButNewlines a b) :
    ∃ rest', number? b = some (value, rest') ∧ SameButNewlines rest rest' := by
  obtain ⟨hsign, hbody⟩ := minusSign_of_sameButNewlines hab
  have hwhole := wholeDigits_eq hbody
  have hdrop := hbody.drop_length (isNewline_eq_false_of_mem_wholeDigits _) (wholeDigits_isPrefix _)
  obtain ⟨hfraction, hbehind⟩ := fraction_of_sameButNewlines hdrop
  unfold number? at h ⊢
  dsimp only at h ⊢
  rw [← hsign, ← hwhole, ← hfraction]
  split at h
  · cases h
  next hnonempty =>
  rw [if_neg hnonempty]
  split at h
  · next exponent behind hexponent =>
    obtain ⟨rest', hexponent', hrest⟩ := exponent?_of_sameButNewlines hexponent hbehind
    obtain ⟨rfl, rfl⟩ := Prod.mk.inj (Option.some.inj h)
    rw [hexponent']
    exact ⟨rest', rfl, hrest⟩
  · next hexponent =>
    rw [exponent?_eq_none hexponent hbehind]
    dsimp only
    split at h
    · next hempty =>
      obtain ⟨rfl, rfl⟩ := Prod.mk.inj (Option.some.inj h)
      rw [if_pos hempty]
      exact ⟨_, rfl, hbehind⟩
    · next hfilled =>
      obtain ⟨rfl, rfl⟩ := Prod.mk.inj (Option.some.inj h)
      rw [if_neg hfilled]
      exact ⟨_, rfl, hbehind⟩

theorem isNewline_eq_false_of_mem_words {word : String × Json} (hword : word ∈ words) :
    ∀ c ∈ word.1.toList, isNewline c = false := by
  have hplain : ∀ word ∈ words, (word.1.toList.any isNewline) = false := by decide
  exact fun c hc => Bool.eq_false_iff.2 (List.any_eq_false.1 (hplain word hword) c hc)

/-- The same word, if any, stands at the start of both texts. -/
theorem find?_words_eq {a b : List Char} (h : SameButNewlines a b) :
    (words.find? fun word => word.1.toList.isPrefixOf a) =
      words.find? fun word => word.1.toList.isPrefixOf b :=
  List.find?_congr fun _ hword => h.isPrefixOf_eq (isNewline_eq_false_of_mem_words hword)

/-- **Words and numbers.** -/
theorem readScalar_of_sameButNewlines {a b rest : List Char} {value : Json}
    (h : readScalar a = .ok (value, rest)) (hab : SameButNewlines a b) :
    ∃ rest', readScalar b = .ok (value, rest') ∧ SameButNewlines rest rest' := by
  unfold readScalar at h ⊢
  rw [← find?_words_eq hab]
  split at h
  · next word found hfind =>
    obtain ⟨rfl, rfl⟩ := Prod.mk.inj (Except.ok.inj h)
    have hstart : word.toList.isPrefixOf a = true := by simpa using List.find?_some hfind
    have hbehind := hab.drop_length
      (isNewline_eq_false_of_mem_words (List.mem_of_find?_eq_some hfind))
      (List.isPrefixOf_iff_prefix.1 hstart)
    rw [String.length_toList] at hbehind
    exact ⟨_, rfl, hbehind⟩
  · split at h
    · next number behind hnumber =>
      obtain ⟨rfl, rfl⟩ := Prod.mk.inj (Except.ok.inj h)
      obtain ⟨rest', hnumber', hrest⟩ := number?_of_sameButNewlines hnumber hab
      rw [hnumber']
      exact ⟨rest', rfl, hrest⟩
    · cases h

/-! ## Values -/

mutual

/-- A value of one text stands in the other. -/
theorem ValueAt.of_sameButNewlines {a b rest : List Char} {value : Json} :
    ValueAt a value rest → SameButNewlines a b →
    ∃ rest', ValueAt b value rest' ∧ SameButNewlines rest rest'
  | .string hread, hab => by
    obtain ⟨body, rfl, hsame⟩ := hab.of_cons (show isNewline '"' = false by decide)
    obtain ⟨rest', hread', hrest⟩ := readText_of_sameButNewlines hread hsame (by simp) _
    exact ⟨rest', .string hread', hrest⟩
  | .emptyArray hclosed, hab => by
    obtain ⟨body, rfl, hsame⟩ := hab.of_cons (show isNewline '[' = false by decide)
    obtain ⟨rest', hclosed', hrest⟩ := exists_skipBlanks_eq_cons (by decide) hsame hclosed
    exact ⟨rest', .emptyArray hclosed', hrest⟩
  | .array hitems, hab => by
    obtain ⟨body, rfl, hsame⟩ := hab.of_cons (show isNewline '[' = false by decide)
    obtain ⟨rest', hitems', hrest⟩ := hitems.of_sameButNewlines (skipBlanks_sameButNewlines hsame)
    exact ⟨rest', .array hitems', hrest⟩
  | .emptyObject hclosed, hab => by
    obtain ⟨body, rfl, hsame⟩ := hab.of_cons (show isNewline '\x7b' = false by decide)
    obtain ⟨rest', hclosed', hrest⟩ := exists_skipBlanks_eq_cons (by decide) hsame hclosed
    exact ⟨rest', .emptyObject hclosed', hrest⟩
  | .object hmembers, hab => by
    obtain ⟨body, rfl, hsame⟩ := hab.of_cons (show isNewline '\x7b' = false by decide)
    obtain ⟨rest', hmembers', hrest⟩ :=
      hmembers.of_sameButNewlines (skipBlanks_sameButNewlines hsame)
    exact ⟨rest', .object hmembers', hrest⟩
  | .scalar hread, hab => by
    obtain ⟨rest', hread', hrest⟩ := readScalar_of_sameButNewlines hread hab
    exact ⟨rest', .scalar hread', hrest⟩

theorem ItemsAt.of_sameButNewlines {a b rest : List Char} {items : List Json} :
    ItemsAt a items rest → SameButNewlines a b →
    ∃ rest', ItemsAt b items rest' ∧ SameButNewlines rest rest'
  | .last hitem hclosed, hab => by
    obtain ⟨behind, hitem', hbehind⟩ := hitem.of_sameButNewlines hab
    obtain ⟨rest', hclosed', hrest⟩ := exists_skipBlanks_eq_cons (by decide) hbehind hclosed
    exact ⟨rest', .last hitem' hclosed', hrest⟩
  | .more hitem hcomma hitems, hab => by
    obtain ⟨behind, hitem', hbehind⟩ := hitem.of_sameButNewlines hab
    obtain ⟨next, hcomma', hnext⟩ := exists_skipBlanks_eq_cons (by decide) hbehind hcomma
    obtain ⟨rest', hitems', hrest⟩ := hitems.of_sameButNewlines (skipBlanks_sameButNewlines hnext)
    exact ⟨rest', .more hitem' hcomma' hitems', hrest⟩

theorem MembersAt.of_sameButNewlines {a b rest : List Char} {members : List (LooseText × Json)} :
    MembersAt a members rest → SameButNewlines a b →
    ∃ rest', MembersAt b members rest' ∧ SameButNewlines rest rest'
  | .last hkey hcolon hvalue hclosed, hab => by
    obtain ⟨body, rfl, hsame⟩ := hab.of_cons (show isNewline '"' = false by decide)
    obtain ⟨behindKey, hkey', hbehindKey⟩ := readText_of_sameButNewlines hkey hsame (by simp) _
    obtain ⟨next, hcolon', hnext⟩ := exists_skipBlanks_eq_cons (by decide) hbehindKey hcolon
    obtain ⟨behind, hvalue', hbehind⟩ := hvalue.of_sameButNewlines (skipBlanks_sameButNewlines hnext)
    obtain ⟨rest', hclosed', hrest⟩ := exists_skipBlanks_eq_cons (by decide) hbehind hclosed
    exact ⟨rest', .last hkey' hcolon' hvalue' hclosed', hrest⟩
  | .more hkey hcolon hvalue hcomma hmembers, hab => by
    obtain ⟨body, rfl, hsame⟩ := hab.of_cons (show isNewline '"' = false by decide)
    obtain ⟨behindKey, hkey', hbehindKey⟩ := readText_of_sameButNewlines hkey hsame (by simp) _
    obtain ⟨next, hcolon', hnext⟩ := exists_skipBlanks_eq_cons (by decide) hbehindKey hcolon
    obtain ⟨behind, hvalue', hbehind⟩ := hvalue.of_sameButNewlines (skipBlanks_sameButNewlines hnext)
    obtain ⟨further, hcomma', hfurther⟩ := exists_skipBlanks_eq_cons (by decide) hbehind hcomma
    obtain ⟨rest', hmembers', hrest⟩ :=
      hmembers.of_sameButNewlines (skipBlanks_sameButNewlines hfurther)
    exact ⟨rest', .more hkey' hcolon' hvalue' hcomma' hmembers', hrest⟩

end

/-! ## Whole texts -/

/-- A text that differs from a text with a value in its newlines only has the same value. -/
theorem readAll_of_sameButNewlines {a b : List Char} {value : Json} (h : readAll a = .ok value)
    (hab : SameButNewlines a b) : readAll b = .ok value := by
  rw [readAll_eq_ok_iff] at h ⊢
  obtain ⟨hmark, rest, hvalue, hend⟩ := h
  obtain ⟨rest', hvalue', hrest⟩ := hvalue.of_sameButNewlines (skipBlanks_sameButNewlines hab)
  refine ⟨?_, rest', hvalue', ?_⟩
  · rintro behind rfl
    obtain ⟨behind', rfl, -⟩ := hab.symm.of_cons (by decide)
    exact hmark behind' rfl
  · have hend' := skipBlanks_sameButNewlines hrest
    rw [hend] at hend'
    exact hend'.of_nil

/-- **Newlines do not matter.** Two texts that differ in their newlines only have the same value, or
    none of them has one. -/
theorem read_eq_ok_of_sameButNewlines {a b : String} (h : SameButNewlines a.toList b.toList)
    (value : Json) : read a = .ok value ↔ read b = .ok value := by
  rw [read_eq_ok_iff, read_eq_ok_iff]
  exact ⟨fun ha => readAll_of_sameButNewlines ha h, fun hb => readAll_of_sameButNewlines hb h.symm⟩

end ApiScribe.Json
