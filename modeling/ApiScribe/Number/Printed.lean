import ApiScribe.Number.Basic
import ApiScribe.Number.Shortest

set_option autoImplicit false

/-! # Numbers as diagnostics print them

Whole numbers are printed in full, also those that a printer with a limit of 4300 digits would
refuse. Other numbers are rounded to binary64 and printed with the fewest digits that read back:
positionally, with a fraction of at least one digit, when the first digit stands for a power of ten
from `10 ^ -4` to `10 ^ 15`, and otherwise with an exponent of at least two digits and a sign. -/

namespace ApiScribe.Number

/-- Digits with the point after the first `whole` of them, zeros filling the gaps. -/
def positional (digits : List Char) (whole : Int) : List Char :=
  if whole ≤ 0 then '0' :: '.' :: List.replicate (-whole).toNat '0' ++ digits
  else if digits.length ≤ whole.toNat then
    digits ++ List.replicate (whole.toNat - digits.length) '0' ++ ['.', '0']
  else digits.take whole.toNat ++ '.' :: digits.drop whole.toNat

/-- The power of ten of the first digit, with its sign and at least two digits. -/
def exponentText (exponent : Int) : List Char :=
  let digits := Nat.toDigits 10 exponent.natAbs
  let padded := if digits.length < 2 then '0' :: digits else digits
  (if exponent < 0 then '-' else '+') :: padded

/-- Digits with a point after the first and an exponent. -/
def scientific (digits : List Char) (exponent : Int) : List Char :=
  let rest := digits.drop 1
  digits.take 1 ++ (if rest.isEmpty then [] else '.' :: rest) ++ 'e' :: exponentText exponent

/-- The text of a positive decimal. -/
def Scientific.printed (s : Scientific) : List Char :=
  let all := Nat.toDigits 10 s.digits
  let digits := (all.reverse.dropWhile (· = '0')).reverse
  let first := s.exponent + all.length - 1
  if -4 ≤ first ∧ first < 16 then positional digits (first + 1) else scientific digits first

/-- The text of a number. -/
def printed : Number → String
  | integer value => toString value
  | decimal negative digits exponent =>
    let sign := if negative then "-" else ""
    match Binary64.ofDecimal digits exponent with
    | .infinite => sign ++ "inf"
    | .finite 0 _ => sign ++ "0.0"
    | .finite significand exponent =>
      sign ++ String.ofList (shortest significand exponent).printed
  | infinite negative => if negative then "-inf" else "inf"
  | notANumber => "nan"

end ApiScribe.Number
