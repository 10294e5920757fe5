import Cockpit.Value.Number
import Cockpit.Number.Numeral

/-!
# Conversions of values

What a value is when an integer, a binary64 number, a sequence or an object
is asked for.  A value of the wrong type is a mismatch.  A text of the wrong
form, a NaN and an infinity each have a fault of their own.
-/

namespace Cockpit.Value

/-- The integer that a value denotes.  Fractions are dropped. -/
def toInt : Value → Except Fault Int
  | .float .nan => .error .nanToWhole
  | .float x => match x.truncate? with
    | some n => .ok n
    | none => .error .overflow
  | .text s => match Number.readInt s with
    | .ok n => .ok n
    | .error .malformed => .error (.notWhole s)
    | .error (.tooLong n) => .error (.numeralTooLong n)
  | v => match v.wholeNumber? with
    | some n => .ok n
    | none => .error (.mismatch (.notWhole v.typeName))

/-- The binary64 number that a value denotes. -/
def toDouble : Value → Except Fault Double
  | .text s => match Number.readDouble? s with
    | some x => .ok x
    | none => .error (.notReal s)
  | v => match v.scalar? with
    | some a => a.toDouble
    | none => .error (.mismatch (.notReal v.typeName))

/-- The characters of a text as values. -/
def characters (s : String) : List Value := s.toList.map fun c => .text c.toString

/-- The items of a sequence: of a list, the characters of a text, the keys of an object. -/
def items : Value → Except Fault (List Value)
  | .list xs => .ok xs
  | .text s => .ok (characters s)
  | .object es => .ok (es.map fun e => .text e.1)
  | v => .error (.mismatch (.notIterable v.typeName))

/-- The items of a sequence, where a value that is not set has none. -/
def itemsIfSet (v : Value) : Except Fault (List Value) :=
  if v.isSet then v.items else .ok []

/-- The arguments of a remote function: the texts of the items. -/
def arguments (v : Value) : Except Fault (List String) :=
  v.itemsIfSet.map (·.map toText)

/-- How many items a sequence has. -/
def size (v : Value) : Except Fault Nat :=
  match v with
  | .text s => .ok s.length
  | .list xs => .ok xs.length
  | .object es => .ok es.length
  | _ => .error .wrongType

/-- A position in a sequence. -/
def toIndex (v : Value) : Except Fault Int :=
  match v.wholeNumber? with
  | some n => .ok n
  | none => .error .wrongType

/-- A value that must be a text. -/
def needText : Value → Except Fault String
  | .text s => .ok s
  | _ => .error .wrongType

/-- A value that must be a text, where others lack the operations of texts. -/
def textMember : Value → Except Fault String
  | .text s => .ok s
  | _ => .error .noMember

/-- The entry that an item of a list of entries denotes: a key and a value. -/
def toEntry (index : Nat) (item : Value) : Except Fault (String × Value) :=
  match item.items with
  | .ok [k, v] => if k.isName then .ok (k.toText, v) else .error .wrongType
  | .ok xs => .error (.entryLength index xs.length)
  | .error _ => .error (.mismatch (.notEntry index))

/-- The object that a value denotes: itself, or a list of entries. -/
def toEntries : Value → Except Fault Entries
  | .object es => .ok es
  | v => do
    let xs ← v.items
    let es ← (xs.zipIdx).mapM fun (x, i) => toEntry i x
    return Entries.ofList es

end Cockpit.Value
