set_option autoImplicit false

/-! # Numbers of a document

A whole number is kept exactly, whatever its size. A number written with a fraction or an exponent
is kept as the decimal that was written; it is rounded to a binary fraction only when it is printed.
Beside these, documents may hold the three special values. -/

namespace ApiScribe

/-- A number as a document holds it. `decimal` stands for `digits * 10 ^ exponent`, with the sign
    apart so that a negative zero keeps it. -/
inductive Number where
  | integer (value : Int)
  | decimal (negative : Bool) (digits : Nat) (exponent : Int)
  | infinite (negative : Bool)
  | notANumber
deriving DecidableEq, Repr

end ApiScribe
