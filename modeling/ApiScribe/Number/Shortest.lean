import ApiScribe.Number.Binary64

set_option autoImplicit false

/-! # The shortest decimal that reads back

Among the decimals that round to a given binary64, those with the fewest digits are wanted, and of
these the nearest to the number. On the grid of decimals with a given number of digits only the two
neighbours of the number need be tried: if any point of the grid reads back, so does one of them.
Seventeen digits always suffice. -/

namespace ApiScribe.Number

/-- `digits * 10 ^ exponent`. -/
structure Scientific where
  digits : Nat
  exponent : Int
deriving DecidableEq, Repr

/-- The decimal of `count` digits that reads back as `significand * 2 ^ exponent` and is nearest to
    it, an even last digit winning a tie. -/
def decimalOfLength? (significand : Nat) (exponent : Int) (count : Nat) : Option Scientific :=
  let value := Ratio.ofScaled significand 2 exponent
  let grid := value.magnitude 10 - count + 1
  let scaled := value.descale 10 grid
  let low := scaled.num / scaled.den
  let readsBack (digits : Nat) : Bool :=
    Binary64.ofDecimal digits grid == .finite significand exponent
  match readsBack low, readsBack (low + 1) with
  | true, true => some ⟨scaled.round, grid⟩
  | true, false => some ⟨low, grid⟩
  | false, true => some ⟨low + 1, grid⟩
  | false, false => none

/-- The shortest decimal that reads back as the positive `significand * 2 ^ exponent`. -/
def shortest (significand : Nat) (exponent : Int) : Scientific :=
  ((List.range 17).findSome? fun n => decimalOfLength? significand exponent (n + 1)).getD
    ⟨significand, exponent⟩

end ApiScribe.Number
