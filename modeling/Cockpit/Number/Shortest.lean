import Cockpit.Number.Double

/-!
# Shortest decimal digits

The fewest decimal digits that read back as a given positive number, and of
those the nearest to it.

The reals that round to a number form an interval around it.  Its ends lie
halfway to the neighbouring numbers, and they belong to it when the number's
significand is even.  A grid of `n` digits has two points next to the number.
The first grid with such a point inside the interval gives the digits.
-/

namespace Cockpit.Number

/-- Digits with a decimal point: the value is `0.DIGITS * 10 ^ point`. -/
structure Digits where
  digits : List Char
  point : Int
  deriving DecidableEq, Repr, Inhabited

open Double (one spacing)

/-- The power of ten next above a positive number of units. -/
def pointOf (units : Nat) : Int :=
  if one ≤ units then digitCount (units / one)
  else 1 - (digitCount ((one - 1) / units) : Int)

/-- The distance down to the end of the interval, in quarters of a unit.  Below a
power of two the numbers are twice as dense. -/
def reachDown (units : Nat) : Nat :=
  let gap := spacing units
  if 1 < gap ∧ units = Nat.pow 2 52 * gap then gap else 2 * gap

/-- The distance up to the end of the interval, in quarters of a unit. -/
def reachUp (units : Nat) : Nat := 2 * spacing units

/-- Whether `num / den` quarter units round to the number. -/
def roundsTo (units num den : Nat) : Bool :=
  let low := (4 * units - reachDown units) * den
  let high := (4 * units + reachUp units) * den
  if (units / spacing units) % 2 = 0 then low ≤ num && num ≤ high
  else low < num && num < high

/-- The point of the grid with `n` digits that stands for the number: a
coefficient and a power of ten. -/
def onGrid? (units n : Nat) : Option (Nat × Int) :=
  let e := pointOf units - n
  let up := Nat.pow 10 (-e).toNat
  let down := one * Nat.pow 10 e.toNat
  let below := units * up / down
  let fits (c : Nat) : Bool := roundsTo units (4 * c * down) up
  let nearest := roundDiv (units * up) down
  if fits nearest then some (nearest, e)
  else if fits below then some (below, e)
  else if fits (below + 1) then some (below + 1, e)
  else none

/-- The shortest digits of a positive number of units. -/
def shortest (units : Nat) : Digits :=
  let (c, e) := ((List.range 17).findSome? fun n => onGrid? units (n + 1)).getD (0, 0)
  let ds := decimalDigits c
  ⟨(ds.reverse.dropWhile (· = '0')).reverse, e + ds.length⟩

end Cockpit.Number
