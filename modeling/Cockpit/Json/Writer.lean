import Cockpit.Value.Basic

/-!
# Writing JSON

A value as JSON text in a style.  A style says what stands between items, what
stands after a key, whether everything beyond ASCII is escaped, and by how much
nested lines are indented, if they are lines at all.

Three styles are in use: `Style.wire` for instruction streams, `Style.file` for
saved settings, and `Style.plain`.

As with `Value.toText`, integers are described up to `Number.digitLimit` digits.
That a longer one cannot be written is not modelled.
-/

namespace Cockpit.Json

/-- How JSON text is laid out. -/
structure Style where
  /-- What separates items on one line. -/
  comma : String
  /-- What stands between a key and its value. -/
  colon : String
  /-- Whether characters beyond ASCII are escaped. -/
  escapeAll : Bool
  /-- The indentation of nested lines, nothing for a single line. -/
  indent : Option Nat

/-- The least text, with all characters raw that may be. -/
def Style.wire : Style := ⟨",", ":", false, none⟩

/-- Lines indented by two, in ASCII. -/
def Style.file : Style := ⟨",", ": ", true, some 2⟩

/-- A single line with spaces, in ASCII. -/
def Style.plain : Style := ⟨", ", ": ", true, none⟩

/-! ## Strings -/

/-- An escape by code: a backslash, `u` and four digits. -/
def codeEscape (n : Nat) : List Char := '\\' :: 'u' :: Text.hexDigits 4 n

/-- The escape of a character beyond ASCII, as one UTF-16 unit or two. -/
def wideEscape (c : Char) : List Char :=
  let n := c.toNat
  if n < 0x10000 then codeEscape n
  else
    codeEscape (0xD800 + (n - 0x10000) / 0x400) ++ codeEscape (0xDC00 + (n - 0x10000) % 0x400)

/-- One character of a string. -/
def writeChar (escapeAll : Bool) (c : Char) : List Char :=
  if c = '"' then ['\\', '"']
  else if c = '\\' then ['\\', '\\']
  else if c = '\n' then ['\\', 'n']
  else if c = '\r' then ['\\', 'r']
  else if c = '\t' then ['\\', 't']
  else if c = '\x0c' then ['\\', 'f']
  else if c = '\x08' then ['\\', 'b']
  else if c.toNat < 0x20 then codeEscape c.toNat
  else if escapeAll && 0x7F ≤ c.toNat then wideEscape c
  else [c]

/-- A string in quotes. -/
def writeString (escapeAll : Bool) (s : String) : List Char :=
  '"' :: s.toList.flatMap (writeChar escapeAll) ++ ['"']

/-! ## Values -/

/-- A number, where an infinity and NaN are written by name. -/
def writeDouble : Double → List Char
  | .nan => "NaN".toList
  | .inf true => "-Infinity".toList
  | .inf false => "Infinity".toList
  | x => (x.write Value.numberLayout).toList

/-- The start of a nested line. -/
def lineBreak (s : Style) (level : Nat) : List Char :=
  match s.indent with
  | some n => '\n' :: List.replicate (n * level) ' '
  | none => []

/-- Items between brackets, each on a line of its own if the style has lines. -/
def enclose (s : Style) (level : Nat) (opening closing : Char) (parts : List (List Char)) :
    List Char :=
  match parts with
  | [] => [opening, closing]
  | _ =>
    opening :: lineBreak s (level + 1)
      ++ (s.comma.toList ++ lineBreak s (level + 1)).intercalate parts
      ++ lineBreak s level ++ [closing]

mutual

/-- A value as JSON at a level of nesting. -/
def writeAt (s : Style) (level : Nat) : Value → List Char
  | .null => "null".toList
  | .bool b => (if b then "true" else "false").toList
  | .int n => (toString n).toList
  | .float x => writeDouble x
  | .text t => writeString s.escapeAll t
  | .list xs => enclose s level '[' ']' (writeItems s (level + 1) xs)
  | .object es => enclose s level '\x7b' '\x7d' (writeEntries s (level + 1) es)

/-- The items of a list as JSON. -/
def writeItems (s : Style) (level : Nat) : List Value → List (List Char)
  | [] => []
  | x :: xs => writeAt s level x :: writeItems s level xs

/-- The entries of an object as JSON. -/
def writeEntries (s : Style) (level : Nat) : List (String × Value) → List (List Char)
  | [] => []
  | (k, x) :: es =>
    (writeString s.escapeAll k ++ s.colon.toList ++ writeAt s level x) :: writeEntries s level es

end

/-- A value as JSON text. -/
def write (s : Style) (v : Value) : String := String.ofList (writeAt s 0 v)

end Cockpit.Json
