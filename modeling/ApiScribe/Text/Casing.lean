import ApiScribe.Unicode.Cased
import ApiScribe.Unicode.CaseIgnorable
import ApiScribe.Unicode.Lower
import ApiScribe.Unicode.Upper

set_option autoImplicit false

/-! # Upper and lower case of whole texts

Both directions use the full mappings, so a text may grow. Upper case treats every character by
itself. Lower case does too, but for the capital sigma, which takes its final form at the end of a
word: after a cased character and not before one, where case-ignorable characters do not count. -/

namespace ApiScribe.Text

/-! ## Upper case -/

/-- The upper-case image of one character. -/
def upperChar (c : Char) : List Char :=
  if c.toNat < 128 then [c.toUpper] else Unicode.upperMap.apply c

/-- The text in upper case. -/
def upper (text : String) : String := String.ofList (text.toList.flatMap upperChar)

/-- The text with its first character in upper case and the rest as it is. -/
def upperFirst (text : String) : String :=
  match text.toList with
  | [] => ""
  | c :: rest => String.ofList (upperChar c ++ rest)

/-! ## Lower case -/

/-- The lower-case image of one character on its own. -/
def lowerChar (c : Char) : List Char :=
  if c.toNat < 128 then [c.toLower] else Unicode.lowerMap.apply c

/-- Whether the first character that is not case-ignorable has case. -/
def startsCased : List Char → Bool
  | [] => false
  | c :: rest => if Unicode.caseIgnorable.contains c then startsCased rest else Unicode.cased.contains c

/-- Lower case of `rest`, where `before` holds the characters in front of it, nearest first. -/
def lowerAfter (before : List Char) : List Char → List Char
  | [] => []
  | c :: rest =>
    (if c = 'Σ' then [if startsCased before && !startsCased rest then 'ς' else 'σ'] else lowerChar c)
      ++ lowerAfter (c :: before) rest

/-- The text in lower case. -/
def lower (text : String) : String := String.ofList (lowerAfter [] text.toList)

end ApiScribe.Text
