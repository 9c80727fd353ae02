set_option autoImplicit false

/-! # Faults of JSON texts

A text that is no JSON value is refused at one place, for one of ten reasons. The place is reported
as an offset in characters from 0, and as a line and a column from 1. -/

namespace ApiScribe.Json

/-- Why a text is no JSON value. -/
inductive Fault where
  | byteOrderMark
  | expectedValue
  | expectedPropertyName
  | expectedColon
  | expectedComma
  | unterminatedString
  | invalidControlCharacter
  | invalidEscape
  | invalidCodeEscape
  | extraData
deriving DecidableEq, Repr

/-- The wording of a fault. -/
def Fault.message : Fault → String
  | byteOrderMark => "Unexpected UTF-8 BOM (decode using utf-8-sig)"
  | expectedValue => "Expecting value"
  | expectedPropertyName => "Expecting property name enclosed in double quotes"
  | expectedColon => "Expecting ':' delimiter"
  | expectedComma => "Expecting ',' delimiter"
  | unterminatedString => "Unterminated string starting at"
  | invalidControlCharacter => "Invalid control character at"
  | invalidEscape => "Invalid \\escape"
  | invalidCodeEscape => "Invalid \\uXXXX escape"
  | extraData => "Extra data"

/-- A fault and its place. -/
structure SyntaxError where
  fault : Fault
  offset : Nat
  line : Nat
  column : Nat
deriving DecidableEq, Repr

/-- The fault that occurs after `passed` characters of a text. -/
def SyntaxError.after (passed : List Char) (fault : Fault) : SyntaxError where
  fault
  offset := passed.length
  line := passed.count '\n' + 1
  column := (passed.reverse.takeWhile (· ≠ '\n')).length + 1

/-- The wording of a fault with its place. -/
def SyntaxError.message (e : SyntaxError) : String :=
  s!"{e.fault.message}: line {e.line} column {e.column} (char {e.offset})"

end ApiScribe.Json
