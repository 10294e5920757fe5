import Cockpit.Command.Wire

/-!
# Instruction streams

A stream is a sequence of commands.  Its text joins the texts of the commands,
and on the wire the text stands in brackets, so that it is a JSON array.

A position counts from the end when it is negative.
-/

namespace Cockpit

/-- A sequence of commands. -/
abbrev Stream := List Command

namespace Stream

def opening : String := "["
def closing : String := "]"

/-- How many queries a stream carries. -/
def queries (s : Stream) : Nat := s.countP Command.isQuery

@[simp] theorem queries_nil : queries [] = 0 := rfl

@[simp] theorem queries_append (s t : Stream) : queries (s ++ t) = s.queries + t.queries :=
  List.countP_append

/-- The text of a stream. -/
def write (s : Stream) : Except Fault String :=
  (s.mapM Command.write).map Command.separator.intercalate

/-- The text of a stream in brackets. -/
def framed (s : Stream) : Except Fault String :=
  s.write.map fun t => opening ++ t ++ closing

/-- The position that an index means: from the end if it is negative. -/
def position (s : Stream) (i : Int) : Int := if i < 0 then i + s.length else i

/-- Keeps the commands before a position. -/
def keep (s : Stream) (i : Int) : Stream := s.take (s.position i).toNat

/-- Keeps the commands before an untyped position.  Null keeps none. -/
def truncate (s : Stream) : Value → Except Fault Stream
  | .null => .ok []
  | v => v.toIndex.map s.keep

/-- The command at an index. -/
def get (s : Stream) (i : Int) : Except Fault Command :=
  if s.position i < 0 then .error .outOfRange
  else match s[(s.position i).toNat]? with
    | some c => .ok c
    | none => .error .outOfRange

/-- The command at an untyped index. -/
def getAt (s : Stream) (v : Value) : Except Fault Command := v.toIndex.bind s.get

end Stream

end Cockpit
