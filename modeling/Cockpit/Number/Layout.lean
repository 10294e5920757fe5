import Cockpit.Number.Shortest

/-!
# Text of binary64 numbers

Two layouts.  The plain one writes the shortest digits, positionally for
moderate sizes and with an exponent outside of them.  The fixed one rounds the
exact value to a number of places.  `Double.ofDecimal` reads a decimal.
-/

namespace Cockpit

/-- How shortest digits are laid out. -/
structure Layout where
  /-- The least decimal exponent written positionally. -/
  least : Int
  /-- The least decimal exponent above those. -/
  beyond : Int
  /-- The least number of digits of a written exponent. -/
  exponentWidth : Nat

namespace Double

open Number (Digits shortest roundDiv decimalDigits digitCount)

private def zeros (n : Nat) : List Char := List.replicate n '0'

private def signText (negative : Bool) : List Char := if negative then ['-'] else []

/-- Digits around a decimal point, with at least one on each side. -/
def positional (d : Digits) : List Char :=
  if d.point ≤ 0 then '0' :: '.' :: zeros (-d.point).toNat ++ d.digits
  else
    let n := d.point.toNat
    if d.digits.length ≤ n then d.digits ++ zeros (n - d.digits.length) ++ ['.', '0']
    else d.digits.take n ++ '.' :: d.digits.drop n

/-- One digit, the others after a point, and an exponent with its sign. -/
def scientific (width : Nat) (d : Digits) : List Char :=
  let e := d.point - 1
  let tail := d.digits.drop 1
  let ds := decimalDigits e.natAbs
  d.digits.take 1 ++ (if tail = [] then [] else '.' :: tail)
    ++ 'e' :: (if e < 0 then '-' else '+') :: zeros (width - ds.length) ++ ds

/-- The text of a number in a layout. -/
def write (l : Layout) : Double → String
  | .nan => "nan"
  | .inf s => String.ofList (signText s ++ ['i', 'n', 'f'])
  | .finite s 0 => String.ofList (signText s ++ ['0', '.', '0'])
  | .finite s u =>
    let d := shortest u
    let body :=
      if l.least ≤ d.point - 1 ∧ d.point - 1 < l.beyond then positional d
      else scientific l.exponentWidth d
    String.ofList (signText s ++ body)

/-- The text with a fixed number of places, at least one.  The sign stays on a
value that rounds to zero. -/
def fixed (places : Nat) : Double → String
  | .nan => "nan"
  | .inf s => String.ofList (signText s ++ ['i', 'n', 'f'])
  | .finite s u =>
    let ds := decimalDigits (roundDiv (u * Nat.pow 10 places) one)
    let ds := zeros (places + 1 - ds.length) ++ ds
    let whole := ds.length - places
    String.ofList (signText s ++ ds.take whole ++ '.' :: ds.drop whole)

/-- The number nearest to `coefficient * 10 ^ exponent`.  Far outside the format
the answer is known without computing the power. -/
def ofDecimal (negative : Bool) (coefficient : Nat) (exponent : Int) : Double :=
  let size := (digitCount coefficient : Int) + exponent
  if coefficient = 0 ∨ size < -400 then .finite negative 0
  else if 400 < size then .inf negative
  else ofRatio negative (coefficient * Nat.pow 10 exponent.toNat) (Nat.pow 10 (-exponent).toNat)

end Double

end Cockpit
