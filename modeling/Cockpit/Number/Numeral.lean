import Cockpit.Number.Layout
import Cockpit.Text.Digit

/-!
# Reading numerals

An integer numeral is an optional sign and decimal digits of any script, where
single underscores may stand between digits.  A decimal numeral may also have a
point, an exponent, or be a name for an infinity or NaN.  White space around a
numeral is skipped.

An integer numeral of more than `digitLimit` digits is refused before it is
read, so that reading stays cheap.
-/

namespace Cockpit.Number

open Text (digitValue? isBlank isAsciiBlank)

/-- The most digits that an integer numeral may have. -/
def digitLimit : Nat := 4300

/-- Why a text is no integer numeral. -/
inductive NumeralError where
  | malformed
  /-- The numeral has this many digits. -/
  | tooLong (digits : Nat)
  deriving DecidableEq, Repr

/-! ## Digits of all scripts -/

/-- A character as ASCII: digits of all scripts by value, blanks as spaces. -/
def foldChar (c : Char) : Char :=
  if c.toNat < 0x7F then c
  else if isBlank c then ' '
  else match digitValue? c with
    | some d => Char.ofNat (48 + d)
    | none => '?'

/-- A text without the white space around it, in ASCII.  A text that is ASCII
already is not changed otherwise. -/
def foldText (cs : List Char) : List Char :=
  let cs := if cs.all fun c => c.toNat < 0x80 then cs else cs.map foldChar
  ((cs.dropWhile isAsciiBlank).reverse.dropWhile isAsciiBlank).reverse

/-- The natural that decimal digits denote. -/
def ofDigits (ds : List Char) : Nat :=
  ds.foldl (fun n c => 10 * n + (c.toNat - 48)) 0

/-- A sign and what follows it. -/
def splitSign : List Char → Bool × List Char
  | '-' :: cs => (true, cs)
  | '+' :: cs => (false, cs)
  | cs => (false, cs)

/-- Whether every underscore stands between two digits. -/
def underscoresFit : (previous : Option Char) → List Char → Bool
  | p, [] => p != some '_'
  | p, c :: cs =>
    (if c = '_' then (p.any Char.isDigit) else (p != some '_' || c.isDigit))
      && underscoresFit (some c) cs

/-! ## Integers -/

/-- The integer that a text denotes. -/
def readInt (s : String) : Except NumeralError Int :=
  let (negative, body) := splitSign (foldText s.toList)
  let run := body.takeWhile fun c => c.isDigit || c == '_'
  let digits := run.filter Char.isDigit
  if !underscoresFit none run then .error .malformed
  else if digitLimit < digits.length then .error (.tooLong digits.length)
  else if digits.isEmpty || run.length != body.length then .error .malformed
  else .ok (if negative then - (ofDigits digits : Int) else ofDigits digits)

/-! ## Decimals -/

/-- An exponent, which is a mark, a sign and digits, or nothing at all. -/
def readExponent? : List Char → Option Int
  | [] => some 0
  | c :: cs =>
    if c = 'e' ∨ c = 'E' then
      let (negative, ds) := splitSign cs
      if ds.isEmpty || !ds.all Char.isDigit then none
      else some (if negative then - (ofDigits ds : Int) else ofDigits ds)
    else none

/-- The unsigned decimal that characters without underscores denote. -/
def readDecimal? (negative : Bool) (cs : List Char) : Option Double :=
  let whole := cs.takeWhile Char.isDigit
  let rest := cs.dropWhile Char.isDigit
  let (places, rest) := match rest with
    | '.' :: r => (r.takeWhile Char.isDigit, r.dropWhile Char.isDigit)
    | r => ([], r)
  if whole.isEmpty && places.isEmpty then none
  else (readExponent? rest).map fun e =>
    Double.ofDecimal negative (ofDigits (whole ++ places)) (e - places.length)

/-- The number that a text denotes. -/
def readDouble? (s : String) : Option Double :=
  let cs := foldText s.toList
  let (negative, body) := splitSign cs
  let name := String.ofList (body.map Char.toLower)
  if name = "inf" ∨ name = "infinity" then some (.inf negative)
  else if name = "nan" then some .nan
  else if !underscoresFit none body then none
  else readDecimal? negative (body.filter (· != '_'))

end Cockpit.Number
