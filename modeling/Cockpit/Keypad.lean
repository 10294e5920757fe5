import Cockpit.Text.Upper
import Cockpit.Value.Convert

/-!
# Typing on keypads

Which keys of a keypad enter a text, a number or a coordinate.  A key is named
by the character on it.  Nothing to enter gives no keys, which differs from
entering zero.

A selector that wraps around is clicked forward from its current position to the
one that is wanted.
-/

namespace Cockpit.Keypad

/-- Characters of formatted values that no key enters. -/
def separators : List Char := [',', '.', '°', '’', '”', '"', '\'', ':']

/-- The key that enters a minus sign when it is pressed twice. -/
def signKey : String := "0"

/-- The key that commits an entry. -/
def enterKey : String := "ENTR"

/-- The keys that enter the hemispheres. -/
def hemisphereKeys : List (String × String) := [("N", "2"), ("S", "8"), ("E", "6"), ("W", "4")]

/-! ## Texts -/

/-- A text without separators. -/
def withoutSeparators (s : String) : String :=
  String.ofList (s.toList.filter (· ∉ separators))

/-- A numeral without leading zeros.  One of zeros alone keeps a single zero. -/
def withoutLeadingZeros (s : String) : String :=
  match s.toList.dropWhile (· = '0') with
  | [] => "0"
  | cs => String.ofList cs

/-- One key per character. -/
def ofText (s : String) : List String := s.toList.map Char.toString

/-- The keys of a number, where a leading minus is two presses of the sign key if
the keypad takes signs, and a key like any other if it does not. -/
def ofNumber (s : String) (signed : Bool) (sign : Value) : List Value :=
  let digits := withoutSeparators s
  match digits.toList with
  | '-' :: rest =>
    if signed then [sign, sign] ++ (ofText (String.ofList rest)).map .text
    else (ofText digits).map .text
  | _ => (ofText digits).map .text

/-- The keys of a number whose magnitude loses its leading zeros.  Only an empty
text gives no keys here. -/
def ofCleanNumber (s : String) (signed : Bool) (sign : Value) : List Value :=
  if s = "" then []
  else
    let digits := withoutSeparators s
    match digits.toList with
    | '-' :: rest =>
      ofNumber ("-" ++ withoutLeadingZeros (String.ofList rest)) signed sign
    | _ => ofNumber (withoutLeadingZeros digits) signed sign

/-- The keys of a coordinate: capitals, with the hemispheres on digit keys. -/
def ofCoordinate (s : String) : List String :=
  let plain := withoutSeparators (String.ofList (s.toList.filter (· ≠ ' ')))
  (ofText (Text.upper plain)).map fun k => (hemisphereKeys.lookup k).getD k

/-! ## Untyped entries -/

/-- The keys of an untyped entry, which has none if it is not set and must be a
text otherwise. -/
def ofValue (keys : String → List Value) (v : Value) : Except Fault (List Value) :=
  if v.isSet then v.textMember.map keys else .ok []

/-- The keys of an untyped text, where any sequence will do. -/
def textKeys (v : Value) : Except Fault (List Value) := v.itemsIfSet

/-- The keys of an untyped coordinate. -/
def coordinateKeys (v : Value) : Except Fault (List Value) :=
  ofValue (fun s => (ofCoordinate s).map .text) v

/-- The keys of an untyped number, cleaned or not. -/
def numberKeys (clean : Bool) (v : Value) (signed : Bool) (sign : Value := .text signKey) :
    Except Fault (List Value) :=
  ofValue (fun s => if clean then ofCleanNumber s signed sign else ofNumber s signed sign) v

/-! ## Selectors -/

/-- The clicks forward from one position of a selector to another. -/
def clicks (current desired options : Value) : Except Fault Value := do
  if ← options.isBelow (.int 1) then .error (.noOptions options)
  else
    let n ← options.toScalar
    let way ← (← desired.toScalar).sub (← current.toScalar)
    let forward ← if way.lt (.int 0) then way.add n else pure way
    return (← forward.floorMod n).toValue

end Cockpit.Keypad
