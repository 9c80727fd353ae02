import ApiScribe.Json.Basic
import ApiScribe.Json.Syntax
import ApiScribe.Text.Hex

set_option autoImplicit false

/-! # Reading JSON

A recursive-descent reader over the characters of a text. Every function takes the text from its
own start on and gives back what it read and the text behind it, or the fault that it met and the
text from the fault on, so places are remainders until the end, where `read` turns a remainder into
an offset.

The language is JSON with three liberties. `NaN`, `Infinity` and `-Infinity` are numbers. An escape
of half a surrogate pair may stand without its other half. A key may be repeated: its last value
counts, at the place of its first. An incomplete fraction or exponent does not belong to the number
before it.

A whole number may have any number of digits. A reader that refuses whole numbers of more than 4300
digits differs from this one there, and only there. -/

namespace ApiScribe.Json

/-- A fault, and the text from it on. -/
structure Refusal where
  fault : Fault
  rest : List Char

/-- Refuses the text for a fault at its start. -/
def refuse {α : Type} (fault : Fault) (rest : List Char) : Except Refusal α := .error ⟨fault, rest⟩

/-! ## Blanks -/

/-- The characters that may stand between tokens. -/
def isBlank (c : Char) : Bool := c ∈ [' ', '\t', '\n', '\r']

/-- The text behind the blanks at its start. -/
def skipBlanks (text : List Char) : List Char := text.dropWhile isBlank

theorem length_skipBlanks_le (text : List Char) : (skipBlanks text).length ≤ text.length :=
  (List.dropWhile_sublist isBlank).length_le

/-! ## String literals -/

/-- The character that a one-letter escape stands for. -/
def escaped? : Char → Option Char
  | '"' => some '"'
  | '\\' => some '\\'
  | '/' => some '/'
  | 'b' => some '\x08'
  | 'f' => some '\x0c'
  | 'n' => some '\n'
  | 'r' => some '\r'
  | 't' => some '\t'
  | _ => none

/-- Whether a code unit is the first half of a surrogate pair. -/
def isHighHalf (unit : Nat) : Bool := 0xD800 ≤ unit && unit < 0xDC00

/-- Whether a code unit is the second half of a surrogate pair. -/
def isLowHalf (unit : Nat) : Bool := 0xDC00 ≤ unit && unit < 0xE000

/-- The symbol of a code unit that stands alone. -/
def unitSymbol (unit : Nat) : Symbol :=
  if h : 0xD800 ≤ unit ∧ unit < 0xE000 then .half ⟨unit, h⟩ else .char (Char.ofNat unit)

/-- The symbol that the two halves of a pair write. -/
def pairSymbol (high low : Nat) : Symbol :=
  .char (Char.ofNat (0x10000 + (high - 0xD800) * 0x400 + (low - 0xDC00)))

/-- The code unit that four hexadecimal digits at the start of a text write. A further character
    has to follow them. `start` is the text from the `u` in front of the digits on. -/
def codeUnit (start : List Char) : List Char → Except Refusal Nat
  | a :: b :: c :: d :: _ :: _ =>
    match Text.hexQuad? a b c d with
    | some unit => .ok unit
    | none => refuse .invalidCodeEscape start
  | _ => refuse .invalidCodeEscape start

/-- The second half of a pair, if the text behind its first half starts with an escape for one.
    It is sought only where seven characters follow or more. -/
def lowHalf? : List Char → Except Refusal (Option Nat)
  | '\\' :: 'u' :: rest =>
    if rest.length < 5 then .ok none
    else do
      let unit ← codeUnit ('u' :: rest) rest
      return if isLowHalf unit then some unit else none
  | _ => .ok none

/-- The symbol that an escape writes, given the text behind its backslash, and how many
    characters of that text belong to the escape. -/
def escape : List Char → Except Refusal (Symbol × Nat)
  | [] => refuse .unterminatedString []
  | 'u' :: rest => do
    let unit ← codeUnit ('u' :: rest) rest
    let low ← if isHighHalf unit then lowHalf? (rest.drop 4) else pure none
    match low with
    | some low => return (pairSymbol unit low, 11)
    | none => return (unitSymbol unit, 5)
  | c :: rest =>
    match escaped? c with
    | some escaped => .ok (.char escaped, 1)
    | none => refuse .invalidEscape ('\\' :: c :: rest)

/-- Reads a literal to its closing quote. `opening` is the text from its opening quote on, `done`
    is what stands in the literal so far, the last symbol first, and the first `skip` characters are
    part of an escape that has been read. -/
def readText (opening : List Char) (skip : Nat) (done : List Symbol) :
    List Char → Except Refusal (LooseText × List Char)
  | [] => refuse .unterminatedString opening
  | c :: rest =>
    match skip with
    | skip + 1 => readText opening skip done rest
    | 0 =>
      if c = '"' then .ok (⟨done.reverse⟩, rest)
      else if c = '\\' then
        if rest.isEmpty then refuse .unterminatedString opening
        else
          match escape rest with
          | .error refusal => .error refusal
          | .ok (escaped, length) => readText opening length (escaped :: done) rest
      else if c < ' ' then refuse .invalidControlCharacter (c :: rest)
      else readText opening 0 (.char c :: done) rest

/-! ## Numbers and words -/

/-- The number that decimal digits write. -/
def natOfDigits (digits : List Char) : Nat :=
  digits.foldl (fun n c => n * 10 + (c.toNat - '0'.toNat)) 0

/-- The digits before the point: a zero alone, or digits that do not start with a zero. -/
def wholeDigits : List Char → List Char
  | '0' :: _ => ['0']
  | text => text.takeWhile Char.isDigit

/-- The digits of a fraction, if a point and a digit follow. -/
def fractionDigits : List Char → List Char
  | '.' :: rest => rest.takeWhile Char.isDigit
  | _ => []

/-- The text behind a fraction, or the whole text if there is none. -/
def skipFraction (text : List Char) : List Char :=
  let digits := fractionDigits text
  if digits.isEmpty then text else text.drop (digits.length + 1)

/-- Whether a number starts with a minus sign, and the text behind that. -/
def minusSign : List Char → Bool × List Char
  | '-' :: rest => (true, rest)
  | text => (false, text)

/-- Whether an exponent starts with a minus sign, and the text behind its sign if it has one. -/
def exponentSign : List Char → Bool × List Char
  | '-' :: rest => (true, rest)
  | '+' :: rest => (false, rest)
  | text => (false, text)

/-- An exponent and the text behind it, if one is written in full. -/
def exponent? : List Char → Option (Int × List Char)
  | mark :: rest =>
    if mark = 'e' ∨ mark = 'E' then
      let (negative, rest) := exponentSign rest
      let digits := rest.takeWhile Char.isDigit
      if digits.isEmpty then none
      else
        let value : Int := natOfDigits digits
        some (if negative then -value else value, rest.drop digits.length)
    else none
  | [] => none

/-- The number at the start of a text, and the text behind it. -/
def number? (text : List Char) : Option (Number × List Char) :=
  let (negative, body) := minusSign text
  let whole := wholeDigits body
  if whole.isEmpty then none
  else
    let rest := body.drop whole.length
    let fraction := fractionDigits rest
    let rest := skipFraction rest
    let digits := natOfDigits (whole ++ fraction)
    match exponent? rest with
    | some (exponent, rest) => some (.decimal negative digits (exponent - fraction.length), rest)
    | none =>
      if fraction.isEmpty then some (.integer (if negative then -digits else digits), rest)
      else some (.decimal negative digits (-fraction.length), rest)

/-- The values that are written as words. -/
def words : List (String × Json) :=
  [("null", .null), ("true", .bool true), ("false", .bool false), ("NaN", .number .notANumber),
    ("Infinity", .number (.infinite false)), ("-Infinity", .number (.infinite true))]

/-- Reads a word or a number. -/
def readScalar (text : List Char) : Except Refusal (Json × List Char) :=
  match words.find? fun word => word.1.toList.isPrefixOf text with
  | some (word, value) => .ok (value, text.drop word.length)
  | none =>
    match number? text with
    | some (value, rest) => .ok (.number value, rest)
    | none => refuse .expectedValue text

/-! ## Values -/

mutual

/-- Reads a value. The fuel bounds the nesting and the number of items and members; twice the
    length of the text is enough. -/
def readValue : Nat → List Char → Except Refusal (Json × List Char)
  | 0, text => refuse .expectedValue text
  | fuel + 1, text =>
    match text with
    | '"' :: rest => do
      let (content, rest) ← readText text 0 [] rest
      return (.string content, rest)
    | '[' :: rest =>
      match skipBlanks rest with
      | ']' :: rest => .ok (.array [], rest)
      | rest => do
        let (items, rest) ← readItems fuel rest
        return (.array items, rest)
    | '\x7b' :: rest =>
      match skipBlanks rest with
      | '\x7d' :: rest => .ok (.object [], rest)
      | rest => do
        let (members, rest) ← readMembers fuel rest
        return (.object (Table.ofList members), rest)
    | text => readScalar text

/-- Reads the items of an array, at least one, and the closing bracket. -/
def readItems : Nat → List Char → Except Refusal (List Json × List Char)
  | 0, text => refuse .expectedValue text
  | fuel + 1, text => do
    let (item, rest) ← readValue fuel text
    match skipBlanks rest with
    | ']' :: rest => return ([item], rest)
    | ',' :: rest =>
      let (items, rest) ← readItems fuel (skipBlanks rest)
      return (item :: items, rest)
    | rest => refuse .expectedComma rest

/-- Reads the members of an object as they are written, at least one, and the closing brace. -/
def readMembers : Nat → List Char → Except Refusal (List (LooseText × Json) × List Char)
  | 0, text => refuse .expectedPropertyName text
  | fuel + 1, text =>
    match text with
    | '"' :: rest => do
      let (key, rest) ← readText text 0 [] rest
      match skipBlanks rest with
      | ':' :: rest =>
        let (value, rest) ← readValue fuel (skipBlanks rest)
        match skipBlanks rest with
        | '\x7d' :: rest => return ([(key, value)], rest)
        | ',' :: rest =>
          let (members, rest) ← readMembers fuel (skipBlanks rest)
          return ((key, value) :: members, rest)
        | rest => refuse .expectedComma rest
      | rest => refuse .expectedColon rest
    | text => refuse .expectedPropertyName text

end

/-- Reads a text that holds one value, with blanks around it at most. -/
def readAll (text : List Char) : Except Refusal Json :=
  match text with
  | '\uFEFF' :: _ => .error ⟨.byteOrderMark, text⟩
  | _ =>
    match readValue (2 * text.length + 1) (skipBlanks text) with
    | .error refusal => .error refusal
    | .ok (value, rest) =>
      match skipBlanks rest with
      | [] => .ok value
      | rest => .error ⟨.extraData, rest⟩

/-- The value that a text writes, or the fault for which it is refused. -/
def read (text : String) : Except SyntaxError Json :=
  (readAll text.toList).mapError fun refusal =>
    .after (text.toList.take (text.toList.length - refusal.rest.length)) refusal.fault

end ApiScribe.Json
