import ApiScribe.Text.Hex
import ApiScribe.Unicode.Unprintable

set_option autoImplicit false

/-! # Texts as diagnostics print them

Messages quote a text so that it can be told apart from its surroundings: in single quotes, or in
double quotes when it holds a single quote and no double quote. The backslash, the chosen quote and
every character without a graphic are escaped, and so are unpaired halves. -/

namespace ApiScribe.Text

/-- Whether a character stands for itself inside a printed text. -/
def isPrintable (c : Char) : Bool :=
  if c.toNat < 127 then ' ' ≤ c else !Unicode.unprintable.contains c

/-- The escape of a character by its code point, in the narrowest of three widths. -/
def codeEscape (c : Char) : List Char :=
  if c.toNat < 0x100 then '\\' :: 'x' :: hexDigits 2 c.toNat
  else if c.toNat < 0x10000 then '\\' :: 'u' :: hexDigits 4 c.toNat
  else '\\' :: 'U' :: hexDigits 8 c.toNat

/-- One character inside a printed text between two `quote`s. -/
def printedChar (quote c : Char) : List Char :=
  if c = quote ∨ c = '\\' then ['\\', c]
  else if c = '\n' then ['\\', 'n']
  else if c = '\r' then ['\\', 'r']
  else if c = '\t' then ['\\', 't']
  else if isPrintable c then [c]
  else codeEscape c

/-- The quote that a printed text is put in. -/
def quoteFor (text : List Char) : Char := if '\'' ∈ text ∧ '"' ∉ text then '"' else '\''

/-- The text as diagnostics print it. -/
def printed (text : String) : String :=
  let quote := quoteFor text.toList
  String.ofList (quote :: text.toList.flatMap (printedChar quote) ++ [quote])

/-- One symbol inside a printed text between two `quote`s. -/
def printedSymbol (quote : Char) : Symbol → List Char
  | .char c => printedChar quote c
  | .half half => halfEscape half

/-- The text with its halves as diagnostics print it. -/
def printedLoose (text : LooseText) : String :=
  let quote := quoteFor text.shown.toList
  String.ofList (quote :: text.symbols.flatMap (printedSymbol quote) ++ [quote])

/-- Without halves there is one way to print a text. -/
theorem printedLoose_ofString (text : String) : printedLoose (.ofString text) = printed text := by
  simp [printedLoose, printed, LooseText.ofString, List.flatMap_map, printedSymbol,
    show LooseText.shown ⟨text.toList.map .char⟩ = text from LooseText.shown_ofString text]

/-- A marked text with its halves as diagnostics print it. -/
def printedMarked (text : String) : String := printedLoose (.ofMarked text)

/-! ## Halves alone -/

/-- The text with escapes in place of its halves, as standard error shows it. -/
def escapeHalves (text : LooseText) : String :=
  String.ofList (text.symbols.flatMap fun
    | .char c => [c]
    | .half half => halfEscape half)

theorem escapeHalves_ofString (text : String) : escapeHalves (.ofString text) = text := by
  simp [escapeHalves, LooseText.ofString, List.flatMap_map]

end ApiScribe.Text
