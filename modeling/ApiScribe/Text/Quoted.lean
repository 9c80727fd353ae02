import ApiScribe.Text.Hex

set_option autoImplicit false

/-! # Double-quoted string literals

A text is written between double quotes as a JSON string, which is a string literal of TypeScript
too. The quote, the backslash and the controls below the space are escaped, the latter by their
short form where there is one; everything else stands for itself. -/

namespace ApiScribe.Text

/-- One character inside a double-quoted literal. -/
def quotedChar (c : Char) : List Char :=
  match c with
  | '"' => ['\\', '"']
  | '\\' => ['\\', '\\']
  | '\n' => ['\\', 'n']
  | '\r' => ['\\', 'r']
  | '\t' => ['\\', 't']
  | '\x08' => ['\\', 'b']
  | '\x0c' => ['\\', 'f']
  | c => if c < ' ' then '\\' :: 'u' :: hexDigits 4 c.toNat else [c]

/-- The text as a double-quoted literal. -/
def quoted (text : String) : String :=
  String.ofList ('"' :: text.toList.flatMap quotedChar ++ ['"'])

theorem toList_quoted (text : String) :
    (quoted text).toList = '"' :: text.toList.flatMap quotedChar ++ ['"'] := by simp [quoted]

end ApiScribe.Text
