import ApiScribe.Number.Basic
import ApiScribe.Table
import ApiScribe.Text.Loose

set_option autoImplicit false

/-! # JSON values

The values that documents are written in. The members of an object form a `Table`: reading resolves
repeated keys, and the order of the members is kept. Strings and keys may hold unpaired halves. -/

namespace ApiScribe

/-- A JSON value. -/
inductive Json where
  | null
  | bool (value : Bool)
  | number (value : Number)
  | string (text : LooseText)
  | array (items : List Json)
  | object (members : List (LooseText × Json))

/-- The members of an object, by key. -/
abbrev Json.Members := Table LooseText Json

/-- The text of a string value, marked. -/
def Json.text? : Json → Option String
  | .string text => some text.marked
  | _ => none

end ApiScribe
