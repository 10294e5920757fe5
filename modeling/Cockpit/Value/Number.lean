import Cockpit.Fault

/-!
# Values as numbers

A number is an integer of any size or a binary64 number, and the truth values
count as `1` and `0`.  Comparisons between the two kinds are exact.  Arithmetic
on mixed kinds first converts the integer, which may overflow.

`Value.clampWait` keeps a wait only when it is positive.
-/

namespace Cockpit

/-- A number of either kind. -/
inductive Scalar where
  | int (n : Int)
  | real (x : Double)
  deriving DecidableEq, Repr

namespace Scalar

/-- The order of two numbers, nothing when either is NaN. -/
def compare? : Scalar → Scalar → Option Ordering
  | .int m, .int n => some (compare m n)
  | .int m, .real y => (y.compareInt? m).map Ordering.swap
  | .real x, .int n => x.compareInt? n
  | .real x, .real y => x.compare? y

def lt (a b : Scalar) : Bool := a.compare? b == some .lt

def le (a b : Scalar) : Bool := (a.compare? b).any (·.isLE)

def toValue : Scalar → Value
  | .int n => .int n
  | .real x => .float x

/-- The binary64 number nearest to a number. -/
def toDouble : Scalar → Except Fault Double
  | .int n => match Double.ofInt? n with
    | some x => .ok x
    | none => .error .overflow
  | .real x => .ok x

/-- An operation on two numbers: exact on integers, on binary64 numbers otherwise. -/
def binary (onInt : Int → Int → Int) (onReal : Double → Double → Double) (a b : Scalar) :
    Except Fault Scalar :=
  match a, b with
  | .int m, .int n => .ok (.int (onInt m n))
  | a, b => do return .real (onReal (← a.toDouble) (← b.toDouble))

def add : Scalar → Scalar → Except Fault Scalar := binary (· + ·) Double.add
def sub : Scalar → Scalar → Except Fault Scalar := binary (· - ·) Double.sub
def mul : Scalar → Scalar → Except Fault Scalar := binary (· * ·) Double.mul

/-- The remainder of division toward the floor. -/
def floorMod : Scalar → Scalar → Except Fault Scalar := binary Int.fmod Double.floorMod

end Scalar

namespace Value

/-- The value as a number. -/
def scalar? : Value → Option Scalar
  | .float x => some (.real x)
  | v => v.wholeNumber?.map .int

/-- The value as a number, which other types are not. -/
def toScalar (v : Value) : Except Fault Scalar :=
  match v.scalar? with
  | some a => .ok a
  | none => .error .wrongType

/-- Whether a value lies below a bound. -/
def isBelow (v : Value) (bound : Scalar) : Except Fault Bool :=
  v.toScalar.map (·.lt bound)

/-- Whether a value lies above a bound. -/
def isAbove (v : Value) (bound : Scalar) : Except Fault Bool :=
  v.toScalar.map bound.lt

/-- Whether a value is a bound or lies below it. -/
def isAtMost (v : Value) (bound : Scalar) : Except Fault Bool :=
  v.toScalar.map (·.le bound)

def isPositive (v : Value) : Except Fault Bool := v.isAbove (.int 0)

/-- A wait that is not positive is none at all. -/
def clampWait (v : Value) : Except Fault Value := do
  return if ← v.isPositive then v else .int 0

/-- Whether a value differs from zero.  Values that are no numbers do. -/
def isNonzero (v : Value) : Bool := !v.sameNumber (.int 0)

/-- A number that equals an integer as that integer. -/
def collapse : Value → Value
  | .float x => match x.toInt? with
    | some n => .int n
    | none => .float x
  | v => v

end Value

end Cockpit
