/-!
# Rounding quotients

A quotient of naturals rounded to the nearest natural.  A quotient halfway
between two neighbours goes to the even one.  Every number that this library
rounds, on its way in or out, is rounded here.

`roundDiv_mul` says that a whole quotient is not changed.
-/

namespace Cockpit.Number

/-- The natural nearest to `num / den`, ties to even. -/
def roundDiv (num den : Nat) : Nat :=
  let q := num / den
  let r := num % den
  if 2 * r < den then q
  else if den < 2 * r then q + 1
  else q + q % 2

/-- Rounding leaves a whole quotient alone. -/
theorem roundDiv_mul (n : Nat) {den : Nat} (h : 0 < den) : roundDiv (n * den) den = n := by
  simp [roundDiv, Nat.mul_div_cancel _ h, Nat.mul_mod_left, h]

/-- Decimal digits of a natural, most significant first. -/
def decimalDigits (n : Nat) : List Char := Nat.toDigits 10 n

/-- How many decimal digits a natural is written with. -/
def digitCount (n : Nat) : Nat := (decimalDigits n).length

end Cockpit.Number
