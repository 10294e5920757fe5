import Cockpit.Command.Wire
import Cockpit.Log

/-!
# Devices

A device of the cockpit owns actions that are addressed by name.  Names are
compared by value and unique within a device.  A sealed device takes no more
actions.

An unknown name is an authoring defect.  A lenient device logs it and gives no
command, so that a stream is built without it.  A strict device fails.
-/

namespace Cockpit

/-- One way to use a control, under a name. -/
structure Action where
  name : Value
  /-- The number of the control. -/
  code : Value
  /-- Milliseconds between setting the control down and up. -/
  delay : Value := .int 0
  down : Value := .int 1
  up : Value := .int 0
  deriving DecidableEq, Inhabited

namespace Action

/-- The action with other parameters.  A zero delay keeps the old one, and a
missing value is taken from the other end. -/
def adapt (a : Action) (delay : Value := .int 0) (down up : Value := .null) : Action :=
  { a with
    delay := if delay.isNonzero then delay else a.delay
    down := if down = .null then a.up else down
    up := if up = .null then a.down else up }

end Action

/-- A cockpit device. -/
structure Device where
  id : Value
  name : Value
  /-- Whether unknown names fail. -/
  strict : Bool := false
  /-- Whether the device takes no more actions. -/
  isSealed : Bool := false
  actions : List Action := []
  deriving DecidableEq, Inhabited

namespace Device

/-! ## Contents -/

/-- The action of a name, which must be able to be one. -/
def find? (d : Device) (name : Value) : Except Fault (Option Action) :=
  if name.isName then .ok (d.actions.find? (·.name.same name)) else .error .wrongType

/-- Whether a device has an action of a name. -/
def contains (d : Device) (name : Value) : Except Fault Bool :=
  (d.find? name).map Option.isSome

/-- The device with one more action. -/
def insert (d : Device) (a : Action) : Except Fault Device := do
  if d.isSealed then .error (.deviceSealed d.name)
  else if ← d.contains a.name then .error (.duplicateAction d.name a.name)
  else return { d with actions := d.actions ++ [a] }

/-- The device with no more actions to come. -/
def sealUp (d : Device) : Device := { d with isSealed := true }

/-- The names of the actions, in the order of their addition. -/
def names (d : Device) : List Value := d.actions.map Action.name

/-- A description of the device. -/
def describe (d : Device) : String :=
  s!"Device(id={d.id.toText}, name={d.name.nested}, actions={d.actions.length})"

/-! ## Look-ups -/

/-- The fault that names unknown actions, which must be texts. -/
def unknown (d : Device) (names : List Value) : Fault :=
  match names.mapM fun v => match v with
    | .text s => some s
    | _ => none with
  | some ns => .unknownAction d.name ns
  | none => .wrongType

/-- Fails unless every name is known, with all that are not. -/
def require (d : Device) (names : List Value) : Except Fault Unit := do
  let missing ← names.filterM fun n => (d.contains n).map not
  if missing.isEmpty then return () else .error (d.unknown missing)

/-- The action of a name.  What happens without one depends on the device. -/
def lookup (d : Device) (name : Value) : Op Log.Journal (Option Action) := do
  match ← d.find? name with
  | some a => return some a
  | none =>
    if d.strict then .stop (d.unknown [name])
    else
      Log.say .device .error s!"Unknown action {name.toText} on device {d.name.toText}, skipping"
      return none

/-- The press that performs an action. -/
def press (d : Device) (a : Action) (postWait : Value) : Except Fault Press := do
  let wait ← postWait.clampWait
  return ⟨d.id, a.code, a.down, a.up, a.delay, wait⟩

/-- The press that performs a named action, if the device has it. -/
def command (d : Device) (name : Value) (postWait : Value := .int 0) :
    Op Log.Journal (Option Press) := do
  match ← d.lookup name with
  | some a => return some (← d.press a postWait)
  | none => return none

/-- The press that performs a named action with other parameters. -/
def adaptedPress? (d : Device) (name delay down up postWait : Value) :
    Op Log.Journal (Option Press) := do
  match ← d.lookup name with
  | some a => return some (← d.press (a.adapt delay down up) postWait)
  | none => return none

/-- The text that a named action sends, empty if there is none. -/
def write (d : Device) (name : Value) : Op Log.Journal String := do
  match ← d.command name with
  | some p => (Command.action p).write
  | none => return ""

end Device

end Cockpit
