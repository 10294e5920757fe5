import Cockpit.Fault
import Cockpit.Number.Numeral

/-!
# Reading JSON

The reader accepts JSON with three more numbers, `NaN`, `Infinity` and
`-Infinity`.  Of a key that occurs twice the last value counts, in the place of
the first.  A number with a point or an exponent is binary64, others are
integers of at most `Number.digitLimit` digits.

A text that is refused has a reason and a position, counted in characters.  The
reader fails at the first place where no continuation could be read.  Nesting is
bounded by `depthLimit`, and deeper texts fail when the limit is passed.

All loops run on fuel that the length of the text provides.
-/

namespace Cockpit.Json

/-! ## Failures -/

/-- What was wrong or missing at a position. -/
inductive Reason where
  | value
  | propertyName
  | colon
  | comma
  | unterminated
  | control
  | escape
  | codeEscape
  | extra
  | byteOrderMark
  deriving DecidableEq, Repr

/-- Why a text cannot be read. -/
inductive Failure where
  | syntaxError (reason : Reason) (position : Nat)
  | numeralTooLong (digits : Nat)
  | tooDeep
  deriving DecidableEq, Repr

/-- The wording of a reason. -/
def Reason.text : Reason → String
  | .value => "Expecting value"
  | .propertyName => "Expecting property name enclosed in double quotes"
  | .colon => "Expecting ':' delimiter"
  | .comma => "Expecting ',' delimiter"
  | .unterminated => "Unterminated string starting at"
  | .control => "Invalid control character at"
  | .escape => "Invalid \\escape"
  | .codeEscape => "Invalid \\uXXXX escape"
  | .extra => "Extra data"
  | .byteOrderMark => "Unexpected UTF-8 BOM (decode using utf-8-sig)"

/-- A reason with its position in a text as line, column and character. -/
def Reason.message (r : Reason) (text : String) (position : Nat) : String :=
  let before := text.toList.take position
  let line := before.count '\n' + 1
  let column := (before.reverse.takeWhile (· ≠ '\n')).length + 1
  s!"{r.text}: line {line} column {column} (char {position})"

/-! ## Cursors -/

/-- What is left of a text, and how many characters have been read. -/
structure Cursor where
  rest : List Char
  position : Nat

/-- A reader of values: it gives the value and what is left. -/
abbrev ValueReader := Cursor → Except Failure (Value × Cursor)

namespace Cursor

/-- The cursor some characters further on. -/
def advance (c : Cursor) (n : Nat) : Cursor := ⟨c.rest.drop n, c.position + n⟩

/-- The cursor after white space. -/
def skipBlanks (c : Cursor) : Cursor :=
  c.advance (c.rest.takeWhile fun x => x == ' ' || x == '\t' || x == '\n' || x == '\r').length

/-- A failure at the cursor. -/
def fail {α : Type} (c : Cursor) (r : Reason) : Except Failure α :=
  .error (.syntaxError r c.position)

end Cursor

/-! ## Strings -/

/-- The value of a hexadecimal digit. -/
def hexValue? (c : Char) : Option Nat :=
  let n := c.toNat
  if 48 ≤ n ∧ n ≤ 57 then some (n - 48)
  else if 97 ≤ n ∧ n ≤ 102 then some (n - 87)
  else if 65 ≤ n ∧ n ≤ 70 then some (n - 55)
  else none

/-- The value of the four hexadecimal digits at the front. -/
def fourHex? (cs : List Char) : Option Nat :=
  match cs with
  | a :: b :: c :: d :: _ => do
    let a ← hexValue? a
    let b ← hexValue? b
    let c ← hexValue? c
    let d ← hexValue? d
    return ((a * 16 + b) * 16 + c) * 16 + d
  | _ => none

/-- The character that a short escape stands for. -/
def shortEscape? : Char → Option Char
  | '"' => some '"'
  | '\\' => some '\\'
  | '/' => some '/'
  | 'b' => some '\x08'
  | 'f' => some '\x0c'
  | 'n' => some '\n'
  | 'r' => some '\r'
  | 't' => some '\t'
  | _ => none

def isHighSurrogate (n : Nat) : Bool := 0xD800 ≤ n && n < 0xDC00

def isLowSurrogate (n : Nat) : Bool := 0xDC00 ≤ n && n < 0xE000

/-- The character of a code, where a surrogate alone is the replacement character. -/
def charOfCode (n : Nat) : Char :=
  if isHighSurrogate n || isLowSurrogate n then '\uFFFD' else Char.ofNat n

/-- An escape by code, at its `u`: the character and how much it takes.  A high
surrogate and the low one after it are one character. -/
def readCode (c : Cursor) : Except Failure (Char × Nat) :=
  let digits := c.rest.drop 1
  if digits.length < 5 then c.fail .codeEscape
  else match fourHex? digits with
    | none => c.fail .codeEscape
    | some n =>
      let more := digits.drop 4
      if isHighSurrogate n && 6 < more.length && more.take 2 == ['\\', 'u'] then
        match fourHex? (more.drop 2) with
        | none => (c.advance 6).fail .codeEscape
        | some m =>
          if isLowSurrogate m then
            .ok (Char.ofNat (0x10000 + (n - 0xD800) * 0x400 + (m - 0xDC00)), 11)
          else .ok (charOfCode n, 5)
      else .ok (charOfCode n, 5)

/-- The characters of a string up to its closing quote. -/
def readChars (opening : Nat) : (fuel : Nat) → List Char → Cursor → Except Failure (String × Cursor)
  | 0, _, _ => .error (.syntaxError .unterminated opening)
  | fuel + 1, read, c =>
    match c.rest with
    | [] => .error (.syntaxError .unterminated opening)
    | '"' :: _ => .ok (String.ofList read.reverse, c.advance 1)
    | '\\' :: next =>
      match next with
      | [] => .error (.syntaxError .unterminated opening)
      | 'u' :: _ => do
        let (x, n) ← readCode (c.advance 1)
        readChars opening fuel (x :: read) (c.advance (n + 1))
      | e :: _ =>
        match shortEscape? e with
        | some x => readChars opening fuel (x :: read) (c.advance 2)
        | none => c.fail .escape
    | x :: _ =>
      if x.toNat < 0x20 then c.fail .control
      else readChars opening fuel (x :: read) (c.advance 1)

/-- A string, at its opening quote. -/
def readString (c : Cursor) : Except Failure (String × Cursor) :=
  readChars c.position (c.rest.length + 1) [] (c.advance 1)

/-! ## Numbers -/

/-- The fraction of a number, which needs a digit after the point. -/
def fractionOf : List Char → List Char
  | '.' :: cs => match cs.takeWhile Char.isDigit with
    | [] => []
    | ds => '.' :: ds
  | _ => []

/-- The exponent of a number, which needs a digit. -/
def exponentOf : List Char → List Char
  | [] => []
  | c :: cs =>
    if c = 'e' ∨ c = 'E' then
      let sign := cs.take 1 |>.filter fun x => x == '+' || x == '-'
      match (cs.drop sign.length).takeWhile Char.isDigit with
      | [] => []
      | ds => c :: sign ++ ds
    else []

/-- The digits of an integer: a zero, or a run that does not start with one. -/
def wholeOf : List Char → List Char
  | '0' :: _ => ['0']
  | cs => cs.takeWhile Char.isDigit

/-- A number, at its first character. -/
def readNumber (c : Cursor) : Except Failure (Value × Cursor) :=
  let negative := c.rest.head? == some '-'
  let body := if negative then c.rest.drop 1 else c.rest
  let whole := wholeOf body
  let fraction := fractionOf (body.drop whole.length)
  let exponent := exponentOf (body.drop (whole.length + fraction.length))
  let size := whole.length + fraction.length + exponent.length
  let after := c.advance (if negative then size + 1 else size)
  if whole.isEmpty then c.fail .value
  else if fraction.isEmpty && exponent.isEmpty then
    if Number.digitLimit < whole.length then .error (.numeralTooLong whole.length)
    else
      let n : Int := Number.ofDigits whole
      .ok (.int (if negative then -n else n), after)
  else
    match Number.readDecimal? negative (whole ++ fraction ++ exponent) with
    | some x => .ok (.float x, after)
    | none => c.fail .value

/-! ## Values -/

/-- The values that are written by name. -/
def named : List (String × Value) :=
  [("null", .null), ("true", .bool true), ("false", .bool false), ("NaN", .float .nan),
    ("Infinity", .float (.inf false)), ("-Infinity", .float (.inf true))]

/-- A value by name, or a number. -/
def readPlain (c : Cursor) : Except Failure (Value × Cursor) :=
  match named.find? fun e => e.1.toList.isPrefixOf c.rest with
  | some e => .ok (e.2, c.advance e.1.length)
  | none => readNumber c

/-- The items of a list from the first one on, up to the closing bracket. -/
def readItems (item : ValueReader) :
    (fuel : Nat) → List Value → Cursor → Except Failure (List Value × Cursor)
  | 0, _, c => c.fail .value
  | fuel + 1, read, c => do
    let (x, c) ← item c
    let c := c.skipBlanks
    match c.rest with
    | ']' :: _ => return ((x :: read).reverse, c.advance 1)
    | ',' :: _ => readItems item fuel (x :: read) (c.advance 1).skipBlanks
    | _ => c.fail .comma

/-- The entries of an object from the first one on, up to the closing brace. -/
def readEntries (item : ValueReader) :
    (fuel : Nat) → List (String × Value) → Cursor → Except Failure (Entries × Cursor)
  | 0, _, c => c.fail .propertyName
  | fuel + 1, read, c => do
    if c.rest.head? != some '"' then c.fail .propertyName
    else
      let (k, c) ← readString c
      let c := c.skipBlanks
      if c.rest.head? != some ':' then c.fail .colon
      else
        let (x, c) ← item (c.advance 1).skipBlanks
        let c := c.skipBlanks
        match c.rest with
        | '\x7d' :: _ => return (Entries.ofList ((k, x) :: read).reverse, c.advance 1)
        | ',' :: _ => readEntries item fuel ((k, x) :: read) (c.advance 1).skipBlanks
        | _ => c.fail .comma

/-- A value, given the reader of the values inside it unless it may hold none. -/
def readValue (inner : Option ValueReader) : ValueReader := fun c =>
  match c.rest with
  | [] => c.fail .value
  | '"' :: _ => (readString c).map fun (s, c) => (.text s, c)
  | '[' :: _ =>
    match inner with
    | none => .error .tooDeep
    | some item =>
      let c := (c.advance 1).skipBlanks
      if c.rest.head? = some ']' then .ok (.list [], c.advance 1)
      else (readItems item (c.rest.length + 1) [] c).map fun (xs, c) => (.list xs, c)
  | '\x7b' :: _ =>
    match inner with
    | none => .error .tooDeep
    | some item =>
      let c := (c.advance 1).skipBlanks
      if c.rest.head? = some '\x7d' then .ok (.object [], c.advance 1)
      else (readEntries item (c.rest.length + 1) [] c).map fun (es, c) => (.object es, c)
  | _ => readPlain c

/-- A value that nests lists and objects to a depth at most. -/
def readNested : (depth : Nat) → ValueReader
  | 0 => readValue none
  | depth + 1 => readValue (some (readNested depth))

/-- How deep lists and objects may be nested. -/
def depthLimit : Nat := 1000

/-- The value that a text holds. -/
def read (text : String) : Except Failure Value := do
  let start : Cursor := ⟨text.toList, 0⟩
  if start.rest.head? = some '\uFEFF' then start.fail .byteOrderMark
  else
    let (v, c) ← readNested depthLimit start.skipBlanks
    let c := c.skipBlanks
    if c.rest.isEmpty then return v else c.fail .extra

end Cockpit.Json
