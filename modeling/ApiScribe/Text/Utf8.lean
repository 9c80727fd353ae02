import ApiScribe.Text.Hex

set_option autoImplicit false

/-! # UTF-8

Bytes that are well-formed UTF-8 decode to the text that they encode. Of other bytes the first
fault is reported: a byte that starts no sequence, a byte that cannot continue the sequence it
stands in, or an end of the bytes inside a sequence.

Every text of characters has an encoding. An unpaired half has none, and of a text with halves the
first run of them is reported. -/

namespace ApiScribe.Text

/-! ## Reading -/

/-- Why bytes are not UTF-8. -/
inductive Utf8Fault where
  | invalidStart
  | invalidContinuation
  | unexpectedEnd
deriving DecidableEq, Repr

/-- The wording of a fault. -/
def Utf8Fault.message : Utf8Fault → String
  | .invalidStart => "invalid start byte"
  | .invalidContinuation => "invalid continuation byte"
  | .unexpectedEnd => "unexpected end of data"

/-- The ranges, ends included, of the bytes due after a first byte; `none` if it can be no first
    byte. The tighter second ranges keep out overlong forms, surrogates and numbers past U+10FFFF. -/
def bytesDue (first : UInt8) : Option (List (UInt8 × UInt8)) :=
  if first < 0x80 then some []
  else if first < 0xC2 then none
  else if first < 0xE0 then some [(0x80, 0xBF)]
  else if first = 0xE0 then some [(0xA0, 0xBF), (0x80, 0xBF)]
  else if first = 0xED then some [(0x80, 0x9F), (0x80, 0xBF)]
  else if first < 0xF0 then some [(0x80, 0xBF), (0x80, 0xBF)]
  else if first = 0xF0 then some [(0x90, 0xBF), (0x80, 0xBF), (0x80, 0xBF)]
  else if first < 0xF4 then some [(0x80, 0xBF), (0x80, 0xBF), (0x80, 0xBF)]
  else if first = 0xF4 then some [(0x80, 0x8F), (0x80, 0xBF), (0x80, 0xBF)]
  else none

/-- The first fault in bytes that follow a sequence in which the ranges `due` are still open. -/
def utf8Fault? (due : List (UInt8 × UInt8)) : List UInt8 → Option Utf8Fault
  | [] => if due.isEmpty then none else some .unexpectedEnd
  | byte :: rest =>
    match due with
    | [] =>
      match bytesDue byte with
      | none => some .invalidStart
      | some due => utf8Fault? due rest
    | (low, high) :: due =>
      if low ≤ byte ∧ byte ≤ high then utf8Fault? due rest else some .invalidContinuation

/-- The text that the bytes encode, or why they encode none. -/
def decodeUtf8 (bytes : ByteArray) : Except Utf8Fault String :=
  match String.fromUTF8? bytes with
  | some text => .ok text
  | none => .error ((utf8Fault? [] bytes.toList).getD .unexpectedEnd)

theorem decodeUtf8_toUTF8 (text : String) : decodeUtf8 text.toUTF8 = .ok text := by
  simp [decodeUtf8, String.fromUTF8?, text.isValidUTF8, String.fromUTF8]

/-! ## Writing -/

/-- Why a text has no encoding: the first halves in it, and the number of characters before
    them. -/
structure Unencodable where
  position : Nat
  halves : List Half
deriving DecidableEq, Repr

/-- The wording of the fault. -/
def Unencodable.message (fault : Unencodable) : String :=
  let place := match fault.halves with
    | [half] =>
      "character '" ++ String.ofList (halfEscape half) ++ "' in position " ++ toString fault.position
    | halves =>
      "characters in position " ++ toString fault.position ++ "-" ++
        toString (fault.position + halves.length - 1)
  "'utf-8' codec can't encode " ++ place ++ ": surrogates not allowed"

/-- The characters in front of the first half, and the symbols from there on. -/
def leadingChars : List Symbol → List Char × List Symbol
  | .char c :: rest => (c :: (leadingChars rest).1, (leadingChars rest).2)
  | rest => ([], rest)

/-- The halves in front of the first character. -/
def leadingHalves : List Symbol → List Half
  | .half half :: rest => half :: leadingHalves rest
  | _ => []

/-- The text as a plain one, or why it is none. -/
def asPlain (text : LooseText) : Except Unencodable String :=
  match leadingChars text.symbols with
  | (characters, []) => .ok (String.ofList characters)
  | (characters, rest) => .error ⟨characters.length, leadingHalves rest⟩

/-- The bytes that encode the text, or why there are none. -/
def encodeUtf8 (text : LooseText) : Except Unencodable ByteArray :=
  (asPlain text).map String.toUTF8

theorem leadingChars_map (characters : List Char) :
    leadingChars (characters.map .char) = (characters, []) := by
  induction characters with
  | nil => rfl
  | cons c rest ih => simp [leadingChars, ih]

theorem map_leadingChars {symbols : List Symbol} (h : (leadingChars symbols).2 = []) :
    symbols = (leadingChars symbols).1.map .char := by
  fun_induction leadingChars symbols with
  | case1 c rest ih => simp [← ih h]
  | case2 rest => exact h

theorem asPlain_ofString (text : String) : asPlain (.ofString text) = .ok text := by
  simp [asPlain, LooseText.ofString, leadingChars_map]

/-- Exactly the texts without halves are plain. -/
theorem asPlain_eq_ok_iff {text : LooseText} {plain : String} :
    asPlain text = .ok plain ↔ text = .ofString plain := by
  constructor
  · intro h
    unfold asPlain at h
    split at h
    · next characters hchars =>
      obtain rfl := Except.ok.inj h
      have hrest : (leadingChars text.symbols).2 = [] := by rw [hchars]
      have hsymbols := map_leadingChars hrest
      rw [hchars] at hsymbols
      simp [LooseText.ofString, ← hsymbols]
    · cases h
  · rintro rfl
    exact asPlain_ofString plain

theorem encodeUtf8_ofString (text : String) : encodeUtf8 (.ofString text) = .ok text.toUTF8 := by
  rw [encodeUtf8, asPlain_ofString]
  rfl

/-- They are the texts that have an encoding. -/
theorem encodeUtf8_eq_ok_iff {text : LooseText} {bytes : ByteArray} :
    encodeUtf8 text = .ok bytes ↔
      ∃ plain : String, text = .ofString plain ∧ bytes = plain.toUTF8 := by
  constructor
  · intro h
    unfold encodeUtf8 at h
    cases hplain : asPlain text with
    | error fault =>
      rw [hplain] at h
      cases h
    | ok plain =>
      rw [hplain] at h
      exact ⟨plain, asPlain_eq_ok_iff.1 hplain, (Except.ok.inj h).symm⟩
  · rintro ⟨plain, rfl, rfl⟩
    exact encodeUtf8_ofString plain

theorem isWhole_iff_exists_encodeUtf8 {text : LooseText} :
    text.IsWhole ↔ ∃ bytes, encodeUtf8 text = .ok bytes := by
  rw [LooseText.isWhole_iff]
  constructor
  · rintro ⟨plain, rfl⟩
    exact ⟨_, encodeUtf8_ofString plain⟩
  · rintro ⟨bytes, h⟩
    obtain ⟨plain, htext, -⟩ := encodeUtf8_eq_ok_iff.1 h
    exact ⟨plain, htext⟩

end ApiScribe.Text
