import Cockpit.Airframe

/-!
# Calls

A call is one use of a builder's vocabulary: press an action, wait, type a
number, add a query.  The same calls are used with values and, in authored
programs, with operands that read the context of the running build.

A call that presses actions is given their device.  The author may hold the
device, or have the builder look it up by name first.

`Call.resolve` replaces the operands by values.  It reads them in the order of
the call's fields.
-/

namespace Cockpit

/-- A field of an authored call. -/
inductive Operand where
  | value (v : Value)
  /-- The value under a key of the context, null without one. -/
  | context (key : String)
  deriving DecidableEq, Inhabited

/-- The value of an operand in a context. -/
def Operand.resolve (context : Value) : Operand → Except Fault Value
  | .value v => .ok v
  | .context k =>
    match context with
    | .object es => .ok (Entries.getD es k .null)
    | c => if c.isSet then .error .noMember else .ok .null

/-- Where a call has its device from. -/
inductive DeviceSource (α : Type) where
  /-- Looked up by name in the airframe of the builder. -/
  | named (name : α)
  /-- Held by the author, whatever the builder knows. -/
  | held (device : Device)
  deriving DecidableEq

/-- The source with its field read. -/
def DeviceSource.mapM {α β : Type} (f : α → Except Fault β) :
    DeviceSource α → Except Fault (DeviceSource β)
  | .named n => return .named (← f n)
  | .held d => return .held d

/-- One use of a builder's vocabulary, with fields of a type. -/
inductive Call (α : Type) where
  /-- Press an action of a device, then wait. -/
  | action (device : DeviceSource α) (name wait : α)
  /-- Press an action with other parameters. -/
  | customAction (device : DeviceSource α) (name down up delay wait : α)
  /-- Press actions in order, then wait once. -/
  | actions (device : DeviceSource α) (names postNames wait : α)
  /-- Press an action a number of times, then wait once. -/
  | repeatAction (device : DeviceSource α) (name count wait : α)
  | wait (delay : α)
  | marker (mark : α)
  | abort (message : α)
  /-- Abort with a message that is shown to the user. -/
  | errorAbort (message : α)
  | exec (fn args wait : α)
  | query (fn args : α)
  /-- Type a text on a keypad. -/
  | typeText (device : DeviceSource α) (value wait : α)
  /-- Type a coordinate on a keypad. -/
  | typeCoordinate (device : DeviceSource α) (value wait : α)
  /-- Type a number on a keypad and press a key that commits it. -/
  | typeNumber (device : DeviceSource α) (value enter signed clean wait : α)
  /-- Empty the stream. -/
  | clear
  /-- Give a device of the airframe. -/
  | device (name : α)
  /-- Drop the commands from a position on. -/
  | truncate (length : α)
  /-- Give the commands of the stream. -/
  | commands
  /-- Set the strictness. -/
  | setStrict (value : α)
  /-- A use that no operation has the fields for.  Its device is looked up all the same. -/
  | misuse (device : Option α)
  deriving DecidableEq

namespace Call

/-- The call with its fields read one after another. -/
def mapM {α β : Type} (f : α → Except Fault β) : Call α → Except Fault (Call β)
  | .action d n w => return .action (← d.mapM f) (← f n) (← f w)
  | .customAction d n x y t w =>
    return .customAction (← d.mapM f) (← f n) (← f x) (← f y) (← f t) (← f w)
  | .actions d ns ps w => return .actions (← d.mapM f) (← f ns) (← f ps) (← f w)
  | .repeatAction d n c w => return .repeatAction (← d.mapM f) (← f n) (← f c) (← f w)
  | .wait t => return .wait (← f t)
  | .marker m => return .marker (← f m)
  | .abort m => return .abort (← f m)
  | .errorAbort m => return .errorAbort (← f m)
  | .exec fn args w => return .exec (← f fn) (← f args) (← f w)
  | .query fn args => return .query (← f fn) (← f args)
  | .typeText d v w => return .typeText (← d.mapM f) (← f v) (← f w)
  | .typeCoordinate d v w => return .typeCoordinate (← d.mapM f) (← f v) (← f w)
  | .typeNumber d v e s c w =>
    return .typeNumber (← d.mapM f) (← f v) (← f e) (← f s) (← f c) (← f w)
  | .clear => return .clear
  | .device n => return .device (← f n)
  | .truncate n => return .truncate (← f n)
  | .commands => return .commands
  | .setStrict v => return .setStrict (← f v)
  | .misuse none => return .misuse none
  | .misuse (some d) => return .misuse (some (← f d))

/-- The call with its operands read from a context. -/
def resolve (context : Value) (c : Call Operand) : Except Fault (Call Value) :=
  c.mapM (Operand.resolve context)

end Call

end Cockpit
