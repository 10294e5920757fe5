import Cockpit.Command.Basic
import Cockpit.Json.Writer

/-!
# Commands on the wire

A command is sent as an object of its tag and its payload.  Keys of a payload
that would say nothing are left out: a zero `up`, `dt` or `tout`, and an empty
`prm`.  A wait after a command is sent as an object of its own.  So one command
gives one object or two, joined like any others.

Where a field must be a number, it is converted here and not before.  So a
command with a bad field can be built and fails when it is sent.
-/

namespace Cockpit.Command

/-- What stands between the objects of a stream. -/
def separator : String := ","

/-- The entry for arguments, if there are any. -/
def argumentEntry (args : List String) : Entries :=
  if args.isEmpty then [] else [("prm", .list (args.map .text))]

/-- The payload of a wait. -/
def waitPayload (delay : Value) : Except Fault Entries :=
  delay.toInt.map fun n => [("dt", .int n)]

/-- The payload of a press. -/
def pressPayload (p : Press) : Except Fault Entries := do
  let device ← p.device.toInt
  let code ← p.code.toInt
  let up := if p.up.isNonzero then [("up", p.up.collapse)] else []
  let delay ← if p.delay.isNonzero then waitPayload p.delay else pure []
  return [("dev", .int device), ("code", .int code), ("dn", p.down.collapse)] ++ up ++ delay

/-- The bound on the rounds of a loop, if there is one. -/
def timeoutEntry (timeout : Value) : Except Fault Entries :=
  if timeout.isSet then timeout.toInt.map fun n => [("tout", .int n)] else pure []

/-- What a command says. -/
def payload : Command → Except Fault Entries
  | .blank => .error .noPayload
  | .action p => pressPayload p
  | .wait d => waitPayload d
  | .marker m => return [("mark", m)]
  | .query fn args => return ("fn", fn) :: argumentEntry args
  | .exec fn args _ => return ("fn", fn) :: argumentEntry args
  | .abort m => return [("msg", m)]
  | .openIf c e args => return [("cond", c), ("expt", .bool e.isSet)] ++ argumentEntry args
  | .closeIf c => return [("cond", c)]
  | .openWhile c e t args => do
    let bound ← timeoutEntry t
    return [("cond", c), ("expt", .bool e.isSet)] ++ bound ++ argumentEntry args
  | .closeWhile c => return [("cond", c)]

/-- The object of a command, without the wait after it. -/
def toObject (c : Command) : Except Fault Value :=
  c.payload.map fun es => .object [("f", .text c.tag), ("a", .object es)]

/-- The object of the wait after a command, if it is positive. -/
def trailer (c : Command) : Except Fault (List Value) :=
  match c.postWait? with
  | none => return []
  | some w => do
    if ← w.isPositive then return [← (Command.wait w).toObject] else return []

/-- The objects that a command sends, in order. -/
def objects (c : Command) : Except Fault (List Value) := do
  let object ← c.toObject
  return object :: (← c.trailer)

/-- The text that a command sends. -/
def write (c : Command) : Except Fault String :=
  c.objects.map fun vs => separator.intercalate (vs.map (Json.write .wire))

end Cockpit.Command
