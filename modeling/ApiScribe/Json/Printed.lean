import ApiScribe.Json.Basic
import ApiScribe.Number.Printed
import ApiScribe.Text.Printed

set_option autoImplicit false

/-! # JSON values as diagnostics print them

A message that refuses a value shows it on one line: texts in quotes, items in brackets, members in
braces, and the three constants by their capitalised names. -/

namespace ApiScribe.Json

mutual

/-- The value as diagnostics print it. -/
def printed : Json → String
  | null => "None"
  | bool true => "True"
  | bool false => "False"
  | number value => value.printed
  | string text => Text.printedLoose text
  | array items => "[" ++ ", ".intercalate (printedItems items) ++ "]"
  | object members => "\x7b" ++ ", ".intercalate (printedMembers members) ++ "\x7d"

/-- Each item as diagnostics print it. -/
def printedItems : List Json → List String
  | [] => []
  | item :: rest => item.printed :: printedItems rest

/-- Each member, its key before a colon. -/
def printedMembers : List (LooseText × Json) → List String
  | [] => []
  | (key, value) :: rest => (Text.printedLoose key ++ ": " ++ value.printed) :: printedMembers rest

end

end ApiScribe.Json
