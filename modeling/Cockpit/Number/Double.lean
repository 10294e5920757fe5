import Cockpit.Number.Rounding

/-!
# Binary64 numbers

A finite binary64 number is a sign and a whole number of *units*, where a unit
is the smallest positive number `2 ^ -1074`.  So exact arithmetic on finite
numbers is arithmetic on naturals, and two finite numbers are equal as data
exactly when they have the same sign and value.  The two zeros differ as data
and compare as equal.

Every operation computes the exact result and rounds it once, to nearest with
ties to even, which is what the format prescribes.  A result above the largest
finite number is an infinity.

`ofInt?` is the conversion that refuses such results instead.
-/

namespace Cockpit

/-- A binary64 number.  There is one NaN. -/
inductive Double where
  | nan
  | inf (negative : Bool)
  /-- The number `units * 2 ^ -1074` with a sign. -/
  | finite (negative : Bool) (units : Nat)
  deriving DecidableEq, Repr, Inhabited

namespace Double

open Number (roundDiv)

/-- The binary places of a unit. -/
def unitPlaces : Nat := 1074

/-- Units in `1`. -/
def one : Nat := Nat.pow 2 unitPlaces

/-- Units from which on a magnitude is infinite. -/
def limit : Nat := Nat.pow 2 (unitPlaces + 1024)

def zero : Double := .finite false 0

/-! ## Rounding -/

/-- The spacing of the numbers around a magnitude of `units`: magnitudes keep 53
significant bits, and the spacing never falls below one unit. -/
def spacing (units : Nat) : Nat := Nat.pow 2 (units.log2 - 52)

/-- The magnitude nearest to `num / den` units that keeps 53 significant bits. -/
def roundUnits (num den : Nat) : Nat :=
  let gap := spacing (num / den)
  roundDiv num (den * gap) * gap

/-- A magnitude with its sign, an infinity from `limit` on. -/
def ofUnits (negative : Bool) (units : Nat) : Double :=
  if units < limit then .finite negative units else .inf negative

/-- The number nearest to `num / den`. -/
def ofRatio (negative : Bool) (num den : Nat) : Double :=
  -- `one` is too large to unfold a product along it, so `num` stands on the right
  ofUnits negative (roundUnits (one * num) den)

/-- The number nearest to a signed count of units, with the sign of zero given. -/
def ofSignedUnits (zeroNegative : Bool) (units : Int) : Double :=
  if units = 0 then .finite zeroNegative 0
  else ofUnits (units < 0) (roundUnits units.natAbs 1)

/-- The number nearest to an integer, or nothing when that is an infinity. -/
def ofInt? (n : Int) : Option Double :=
  match ofRatio (n < 0) n.natAbs 1 with
  | .inf _ => none
  | x => some x

/-! ## Exact views -/

/-- A finite number as a signed count of units. -/
def signedUnits (negative : Bool) (units : Nat) : Int :=
  if negative then - (units : Int) else units

/-- The integer that a finite number equals, if it is one. -/
def toInt? : Double → Option Int
  | .finite s u => if u % one = 0 then some (signedUnits s (u / one)) else none
  | _ => none

/-- The integer part of a finite number, which drops the fraction. -/
def truncate? : Double → Option Int
  | .finite s u => some (signedUnits s (u / one))
  | _ => none

def isNaN : Double → Bool
  | .nan => true
  | _ => false

def isZero : Double → Bool
  | .finite _ 0 => true
  | _ => false

def isNegative : Double → Bool
  | .nan => false
  | .inf s => s
  | .finite s _ => s

/-! ## Order -/

/-- A place on the extended line: below all, a signed count of units, above all. -/
def rank : Double → Option (Int × Int)
  | .nan => none
  | .inf true => some (-1, 0)
  | .inf false => some (1, 0)
  | .finite s u => some (0, signedUnits s u)

/-- The order of two places. -/
def compareRanks (a b : Int × Int) : Ordering :=
  (compare a.1 b.1).then (compare a.2 b.2)

/-- The order of two numbers, nothing when either is NaN.  The zeros are equal. -/
def compare? (x y : Double) : Option Ordering :=
  match x.rank, y.rank with
  | some a, some b => some (compareRanks a b)
  | _, _ => none

/-- The exact order of a number and an integer. -/
def compareInt? (x : Double) (n : Int) : Option Ordering :=
  x.rank.map fun a => compareRanks a (0, n * one)

/-! ## Arithmetic -/

def neg : Double → Double
  | .nan => .nan
  | .inf s => .inf (!s)
  | .finite s u => .finite (!s) u

/-- The sum.  Opposite infinities have none, and a zero sum is negative only if
both terms are. -/
def add : Double → Double → Double
  | .nan, _ => .nan
  | _, .nan => .nan
  | .inf s, .inf t => if s = t then .inf s else .nan
  | .inf s, .finite _ _ => .inf s
  | .finite _ _, .inf t => .inf t
  | .finite s u, .finite t v => ofSignedUnits (s && t) (signedUnits s u + signedUnits t v)

def sub (x y : Double) : Double := x.add y.neg

/-- The product.  A zero and an infinity have none. -/
def mul : Double → Double → Double
  | .nan, _ => .nan
  | _, .nan => .nan
  | .inf s, .inf t => .inf (s != t)
  | .inf s, .finite t v => if v = 0 then .nan else .inf (s != t)
  | .finite s u, .inf t => if u = 0 then .nan else .inf (s != t)
  | .finite s u, .finite t v => ofUnits (s != t) (roundUnits (u * v) one)

/-- The remainder of division toward zero, with the sign of the dividend. -/
def remainder : Double → Double → Double
  | .nan, _ => .nan
  | _, .nan => .nan
  | .inf _, _ => .nan
  | x, .inf _ => x
  | .finite s u, .finite _ v => if v = 0 then .nan else .finite s (u % v)

/-- The remainder of division toward the floor, with the sign of the divisor. -/
def floorMod (x y : Double) : Double :=
  let r := x.remainder y
  if r.isNaN then r
  else if r.isZero then .finite y.isNegative 0
  else if r.isNegative = y.isNegative then r
  else r.add y

end Double

end Cockpit
