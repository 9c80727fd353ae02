set_option autoImplicit false

/-! # Rounding to binary64

A positive rational is rounded to the nearest number of the form `m * 2 ^ q` with `m < 2 ^ 53` and
`-1074 ≤ q ≤ 971`, a tie going to the even `m`. All arithmetic is exact, on a numerator and a
denominator. -/

namespace ApiScribe.Number

/-! ## Exact quotients -/

/-- A nonnegative rational; the denominator is positive wherever one is built. -/
structure Ratio where
  num : Nat
  den : Nat

/-- `digits * base ^ exponent`. -/
def Ratio.ofScaled (digits base : Nat) (exponent : Int) : Ratio :=
  if 0 ≤ exponent then ⟨digits * Nat.pow base exponent.toNat, 1⟩
  else ⟨digits, Nat.pow base (-exponent).toNat⟩

/-- The ratio divided by `base ^ exponent`. -/
def Ratio.descale (r : Ratio) (base : Nat) (exponent : Int) : Ratio :=
  if 0 ≤ exponent then ⟨r.num, r.den * Nat.pow base exponent.toNat⟩
  else ⟨r.num * Nat.pow base (-exponent).toNat, r.den⟩

/-- The whole number nearest to the ratio, the even one of two. -/
def Ratio.round (r : Ratio) : Nat :=
  let low := r.num / r.den
  let twice := 2 * (r.num % r.den)
  if twice < r.den then low
  else if r.den < twice then low + 1
  else if low % 2 = 0 then low else low + 1

/-- The number of digits of `n` in a base. -/
def digitCount (base n : Nat) : Nat := (Nat.toDigits base n).length

/-- The largest `e` with `base ^ e` at most the ratio, which is positive. -/
def Ratio.magnitude (r : Ratio) (base : Nat) : Int :=
  let estimate : Int := digitCount base r.num - digitCount base r.den
  let scaled := r.descale base estimate
  if scaled.den ≤ scaled.num then estimate else estimate - 1

/-! ## The nearest binary fraction -/

/-- A positive binary64: a finite one is `significand * 2 ^ exponent`. -/
inductive Binary64 where
  | finite (significand : Nat) (exponent : Int)
  | infinite
deriving DecidableEq, Repr

/-- `2 ^ 53`, the first number too large for a significand. -/
def significandBound : Nat := 0x20000000000000

/-- The binary64 nearest to a positive ratio; `finite 0 _` where it vanishes. -/
def Binary64.nearest (r : Ratio) : Binary64 :=
  let wanted := r.magnitude 2 - 52
  let exponent := if wanted < -1074 then -1074 else wanted
  let significand := (r.descale 2 exponent).round
  let (significand, exponent) :=
    if significand = significandBound then (significandBound / 2, exponent + 1)
    else (significand, exponent)
  if 971 < exponent then .infinite else .finite significand exponent

/-- The binary64 nearest to `digits * 10 ^ exponent`. Far outside the range of binary64 the answer
    is plain from the number of digits, and no power is computed. -/
def Binary64.ofDecimal (digits : Nat) (exponent : Int) : Binary64 :=
  let magnitude := exponent + digitCount 10 digits
  if digits = 0 ∨ magnitude < -330 then .finite 0 0
  else if 330 < magnitude then .infinite
  else .nearest (.ofScaled digits 10 exponent)

end ApiScribe.Number
