set_option autoImplicit false

/-! # Texts with unpaired halves

A string of a JSON document may hold half of a surrogate pair without its other half, which is no
character. A `LooseText` is a sequence of characters and such halves. Two of them are equal when
they agree in their halves too, so that keys which differ only there stay apart.

A schema keeps its texts as strings, and for that they are *marked*: a private-use character behind
the last code point stands for a half, and that code point, should it stand in the text itself, is
written twice. Marking loses nothing (`LooseText.ofMarked_marked`), so what comes out of a schema
can be read back with all its halves, and a text in which the last code point does not stand is
marked by itself (`LooseText.marked_ofString`). -/

namespace ApiScribe

/-! ## Symbols -/

/-- Half of a surrogate pair, by its code unit. -/
structure Half where
  unit : Nat
  isHalf : 0xD800 ≤ unit ∧ unit < 0xE000
deriving DecidableEq, Repr

/-- The private-use character that stands for a half. -/
def Half.shown (half : Half) : Char := Char.ofNat (0x100000 + half.unit)

theorem Half.toNat_shown (half : Half) : half.shown.toNat = 0x100000 + half.unit := by
  have hvalid : (0x100000 + half.unit).isValidChar := by
    have hunit := half.isHalf
    simp only [Nat.isValidChar]
    omega
  have hshown : half.shown = Char.ofNatAux (0x100000 + half.unit) hvalid := dif_pos hvalid
  rw [hshown]
  rfl

/-- A character, or half of a surrogate pair. -/
inductive Symbol where
  | char (c : Char)
  | half (lone : Half)
deriving DecidableEq, Repr

/-- The half that a symbol is, if it is one. -/
def Symbol.half? : Symbol → Option Half
  | char _ => none
  | half lone => some lone

/-- A character that stands for the symbol where only a look at the text is taken. -/
def Symbol.shown : Symbol → Char
  | char c => c
  | half lone => lone.shown

/-! ## Texts -/

/-- A sequence of characters and unpaired halves. -/
structure LooseText where
  symbols : List Symbol
deriving DecidableEq, Repr

namespace LooseText

/-- A plain text as a text without halves. -/
def ofString (text : String) : LooseText := ⟨text.toList.map .char⟩

instance : Coe String LooseText := ⟨ofString⟩

/-- The text with a character in place of each half. -/
def shown (text : LooseText) : String := String.ofList (text.symbols.map Symbol.shown)

@[simp]
theorem shown_ofString (text : String) : (ofString text).shown = text := by
  simp [ofString, shown, Function.comp_def, Symbol.shown]

theorem ofString_injective {a b : String} (h : ofString a = ofString b) : a = b := by
  simpa using congrArg shown h

/-- The text has no unpaired halves. -/
def IsWhole (text : LooseText) : Prop := ∀ symbol ∈ text.symbols, symbol.half? = none

instance (text : LooseText) : Decidable text.IsWhole :=
  inferInstanceAs (Decidable (∀ symbol ∈ text.symbols, symbol.half? = none))

/-- The texts without halves are the plain ones. -/
theorem isWhole_iff {text : LooseText} : text.IsWhole ↔ ∃ plain : String, text = ofString plain := by
  constructor
  · intro h
    refine ⟨text.shown, ?_⟩
    obtain ⟨symbols⟩ := text
    have hsame : symbols.map (fun symbol => Symbol.char symbol.shown) = symbols := by
      refine (List.map_congr_left fun symbol hsymbol => ?_).trans (List.map_id symbols)
      cases symbol with
      | char c => rfl
      | half lone => cases h _ hsymbol
    simp [ofString, shown, Function.comp_def, hsame]
  · rintro ⟨plain, rfl⟩ symbol hsymbol
    obtain ⟨c, -, rfl⟩ := List.mem_map.1 hsymbol
    rfl

end LooseText

/-! ## Marked texts -/

/-- The last code point, which is no character of any script. -/
def mark : Char := Char.ofNat 0x10FFFF

/-- The characters of a symbol in a marked text. -/
def Symbol.marked : Symbol → List Char
  | char c => if c = mark then [mark, mark] else [c]
  | half lone => [mark, lone.shown]

/-- The symbol that a character behind a mark gives. -/
def Symbol.ofMarked (c : Char) : Symbol :=
  if h : 0xD800 ≤ c.toNat - 0x100000 ∧ c.toNat - 0x100000 < 0xE000 then .half ⟨_, h⟩ else .char c

/-- The symbols that the characters of a marked text give. -/
def unmark : List Char → List Symbol
  | [] => []
  | [c] => [.char c]
  | c :: d :: rest =>
    if c = mark then .ofMarked d :: unmark rest else .char c :: unmark (d :: rest)

theorem Symbol.ofMarked_mark : ofMarked mark = .char mark := by decide

theorem Symbol.ofMarked_shown (half : Half) : ofMarked half.shown = .half half := by
  have hunit : half.shown.toNat - 0x100000 = half.unit := by
    rw [half.toNat_shown, Nat.add_sub_cancel_left]
  simp [ofMarked, hunit, half.isHalf]

theorem unmark_cons {c : Char} (h : c ≠ mark) (rest : List Char) :
    unmark (c :: rest) = .char c :: unmark rest := by
  cases rest with
  | nil => rfl
  | cons d rest => rw [unmark, if_neg h]

theorem unmark_marked_append (symbol : Symbol) (rest : List Char) :
    unmark (symbol.marked ++ rest) = symbol :: unmark rest := by
  cases symbol with
  | char c =>
    by_cases hmark : c = mark
    · subst hmark
      simp [Symbol.marked, unmark, Symbol.ofMarked_mark]
    · simp [Symbol.marked, hmark, unmark_cons]
  | half lone => simp [Symbol.marked, unmark, Symbol.ofMarked_shown]

namespace LooseText

/-- The string that keeps the text with its halves. -/
def marked (text : LooseText) : String := String.ofList (text.symbols.flatMap Symbol.marked)

/-- The text that a marked string keeps. -/
def ofMarked (text : String) : LooseText := ⟨unmark text.toList⟩

/-- **Marking loses nothing.** -/
theorem ofMarked_marked (text : LooseText) : ofMarked text.marked = text := by
  obtain ⟨symbols⟩ := text
  have hsymbols : unmark (symbols.flatMap Symbol.marked) = symbols := by
    induction symbols with
    | nil => rfl
    | cons symbol rest ih => rw [List.flatMap_cons, unmark_marked_append, ih]
  simp [ofMarked, marked, hsymbols]

theorem marked_injective {a b : LooseText} (h : a.marked = b.marked) : a = b := by
  rw [← ofMarked_marked a, h, ofMarked_marked]

/-- A plain text without the mark is marked by itself. -/
theorem marked_ofString {text : String} (h : mark ∉ text.toList) : (ofString text).marked = text := by
  have hself : text.toList.flatMap (fun c => Symbol.marked (.char c)) = text.toList := by
    generalize text.toList = characters at h
    induction characters with
    | nil => rfl
    | cons c rest ih =>
      obtain ⟨hc, hrest⟩ := List.ne_and_not_mem_of_not_mem_cons h
      rw [List.flatMap_cons, ih hrest, Symbol.marked, if_neg (Ne.symm hc)]
      rfl
  simp [marked, ofString, List.flatMap_map, hself]

/-- So it is read back as it is. -/
theorem ofMarked_of_notMem {text : String} (h : mark ∉ text.toList) : ofMarked text = ofString text := by
  rw [← ofMarked_marked (ofString text), marked_ofString h]

end LooseText

end ApiScribe
