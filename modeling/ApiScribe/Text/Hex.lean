import ApiScribe.Text.Loose

set_option autoImplicit false

/-! # Hexadecimal digits

Escapes in both kinds of string literal give a character by a fixed number of hexadecimal digits,
and so does the escape that shows an unpaired half. -/

namespace ApiScribe.Text

/-- The last `width` hexadecimal digits of `n`, in lower case, the most significant first. -/
def hexDigits : Nat → Nat → List Char
  | 0, _ => []
  | width + 1, n => hexDigits width (n / 16) ++ [Nat.digitChar (n % 16)]

/-- The escape of a half. -/
def halfEscape (half : Half) : List Char := '\\' :: 'u' :: hexDigits 4 half.unit

/-- The value of a hexadecimal digit of either case. -/
def hexValue? (c : Char) : Option Nat :=
  if '0' ≤ c ∧ c ≤ '9' then some (c.toNat - '0'.toNat)
  else if 'a' ≤ c ∧ c ≤ 'f' then some (c.toNat - 'a'.toNat + 10)
  else if 'A' ≤ c ∧ c ≤ 'F' then some (c.toNat - 'A'.toNat + 10)
  else none

theorem hexValue?_digitChar {n : Nat} (h : n < 16) : hexValue? (Nat.digitChar n) = some n := by
  have table : ∀ n ∈ List.range 16, hexValue? (Nat.digitChar n) = some n := by decide
  exact table n (List.mem_range.mpr h)

/-- The number that four hexadecimal digits write. -/
def hexQuad? (a b c d : Char) : Option Nat := do
  let a ← hexValue? a
  let b ← hexValue? b
  let c ← hexValue? c
  let d ← hexValue? d
  return ((a * 16 + b) * 16 + c) * 16 + d

/-- Four written digits read back as the number, up to the width of four digits. -/
theorem hexQuad?_hexDigits {n : Nat} (h : n < 0x10000) :
    ∃ a b c d, hexDigits 4 n = [a, b, c, d] ∧ hexQuad? a b c d = some n := by
  refine ⟨_, _, _, _, rfl, ?_⟩
  simp only [hexQuad?, hexValue?_digitChar (Nat.mod_lt _ (by decide : 0 < 16)), bind, Option.bind,
    pure, Option.some.injEq]
  omega

end ApiScribe.Text
