import Cockpit.Text.Quoted

/-!
# UTF-8

Texts are stored in files as UTF-8.  `encode` writes the one standard form of a
character.  `decode` accepts only that form, and says of any other sequence of
bytes where it first fails and how far the failing part reaches.
-/

namespace Cockpit.Text

/-- Why a sequence of bytes is not UTF-8. -/
inductive Utf8Reason where
  | invalidStart
  | invalidContinuation
  | unexpectedEnd
  deriving DecidableEq, Repr

/-- The first part of a sequence of bytes that is not UTF-8. -/
structure Utf8Defect where
  /-- The first byte. -/
  byte : UInt8
  /-- Its position. -/
  start : Nat
  /-- How many bytes the defect covers. -/
  size : Nat
  reason : Utf8Reason
  deriving DecidableEq, Repr

namespace Utf8Defect

/-- The wording of a reason. -/
def reasonText : Utf8Reason → String
  | .invalidStart => "invalid start byte"
  | .invalidContinuation => "invalid continuation byte"
  | .unexpectedEnd => "unexpected end of data"

/-- The wording of a defect. -/
def message (d : Utf8Defect) : String :=
  let place :=
    if d.size = 1 then
      "byte 0x" ++ String.ofList (hexDigits 2 d.byte.toNat) ++ s!" in position {d.start}"
    else s!"bytes in position {d.start}-{d.start + d.size - 1}"
  s!"'utf-8' codec can't decode {place}: {reasonText d.reason}"

end Utf8Defect

namespace Utf8

/-! ## Writing -/

/-- The bytes of one character. -/
def encodeChar (c : Char) : List UInt8 :=
  let n := c.toNat
  let tail (shift : Nat) : UInt8 := UInt8.ofNat (0x80 + n / Nat.pow 2 shift % 0x40)
  if n < 0x80 then [UInt8.ofNat n]
  else if n < 0x800 then [UInt8.ofNat (0xC0 + n / 0x40), tail 0]
  else if n < 0x10000 then [UInt8.ofNat (0xE0 + n / 0x1000), tail 6, tail 0]
  else [UInt8.ofNat (0xF0 + n / 0x40000), tail 12, tail 6, tail 0]

/-- The bytes of a text. -/
def encode (s : String) : List UInt8 := s.toList.flatMap encodeChar

/-! ## Reading -/

/-- Whether a byte continues a character. -/
def isTail (b : UInt8) : Bool := 0x80 ≤ b && b < 0xC0

/-- Whether a byte may follow a leading one.  The excluded pairs would write a
character in a longer form, a surrogate, or no character at all. -/
def follows (lead b : UInt8) : Bool :=
  isTail b &&
    (if lead = 0xE0 then 0xA0 ≤ b
     else if lead = 0xED then b < 0xA0
     else if lead = 0xF0 then 0x90 ≤ b
     else if lead = 0xF4 then b < 0x90
     else true)

/-- The character of a leading byte, whose own bits lie above `base`, and its tail. -/
def join (base : Nat) (lead : UInt8) (tail : List UInt8) : Char :=
  Char.ofNat (tail.foldl (fun n b => n * 0x40 + (b.toNat - 0x80)) (lead.toNat - base))

/-- The characters of bytes that start at a position. -/
def decodeFrom (pos : Nat) : List UInt8 → Except Utf8Defect (List Char)
  | [] => .ok []
  | a :: r =>
    let fail (size : Nat) (reason : Utf8Reason) : Except Utf8Defect (List Char) :=
      .error ⟨a, pos, size, reason⟩
    if a < 0x80 then
      (decodeFrom (pos + 1) r).map (Char.ofNat a.toNat :: ·)
    else if a < 0xC2 then fail 1 .invalidStart
    else if a < 0xE0 then
      match r with
      | [] => fail 1 .unexpectedEnd
      | b :: r =>
        if !follows a b then fail 1 .invalidContinuation
        else (decodeFrom (pos + 2) r).map (join 0xC0 a [b] :: ·)
    else if a < 0xF0 then
      match r with
      | [] => fail 1 .unexpectedEnd
      | [b] => if !follows a b then fail 1 .invalidContinuation else fail 2 .unexpectedEnd
      | b :: c :: r =>
        if !follows a b then fail 1 .invalidContinuation
        else if !isTail c then fail 2 .invalidContinuation
        else (decodeFrom (pos + 3) r).map (join 0xE0 a [b, c] :: ·)
    else if a < 0xF5 then
      match r with
      | [] => fail 1 .unexpectedEnd
      | [b] => if !follows a b then fail 1 .invalidContinuation else fail 2 .unexpectedEnd
      | [b, c] =>
        if !follows a b then fail 1 .invalidContinuation
        else if !isTail c then fail 2 .invalidContinuation
        else fail 3 .unexpectedEnd
      | b :: c :: d :: r =>
        if !follows a b then fail 1 .invalidContinuation
        else if !isTail c then fail 2 .invalidContinuation
        else if !isTail d then fail 3 .invalidContinuation
        else (decodeFrom (pos + 4) r).map (join 0xF0 a [b, c, d] :: ·)
    else fail 1 .invalidStart

/-- The text that bytes hold. -/
def decode (bytes : List UInt8) : Except Utf8Defect String :=
  (decodeFrom 0 bytes).map String.ofList

end Utf8

end Cockpit.Text
