import Cockpit.Device

/-!
# Airframes

An airframe has devices, which are found by name.  Registering a device seals
it, so what an airframe has given out never changes.  A name that is taken stays
with the device that took it first.

A catalog is the plain data of an airframe: its name and a list of devices, each
with its actions.  `Airframe.ofCatalog` reads it in order and stops at the first
entry that does not fit.
-/

namespace Cockpit

/-- An airframe with its devices, in the order of registration. -/
structure Airframe where
  name : Value
  devices : List Device := []
  deriving DecidableEq, Inhabited

namespace Airframe

/-- The registered device of a name, if there is one. -/
def find? (a : Airframe) (name : Value) : Except Fault (Option Device) :=
  if name.isName then .ok (a.devices.find? (·.name.same name)) else .error .wrongType

/-- Whether a name is registered. -/
def contains (a : Airframe) (name : Value) : Except Fault Bool :=
  (a.find? name).map Option.isSome

/-- The registered device of a name. -/
def device (a : Airframe) (name : Value) : Except Fault Device := do
  match ← a.find? name with
  | some d => return d
  | none => .error (.unknownDevice a.name name)

/-- The names of the devices, in the order of registration. -/
def names (a : Airframe) : List Value := a.devices.map Device.name

/-- The airframe with one more device, which is sealed. -/
def register (a : Airframe) (d : Device) : Op Log.Journal Airframe := do
  if ← a.contains d.name then .stop (.duplicateDevice a.name d.name)
  else
    Log.say .airframe .debug
      s!"Registered device {d.name.toText} ({d.actions.length} actions) for {a.name.toText}"
    return { a with devices := a.devices ++ [d.sealUp] }

/-- An airframe with devices. -/
def ofDevices (name : Value) (ds : List Device) : Op Log.Journal Airframe :=
  ds.foldlM register { name }

/-! ## Catalogs -/

/-- The entries of an object in a catalog. -/
def fields : Value → Except Fault Entries
  | .object es => .ok es
  | _ => .error .wrongType

/-- The value under a key that an object must have. -/
def member (es : Entries) (key : String) : Except Fault Value :=
  match es.get? key with
  | some v => .ok v
  | none => .error (.missingKey key)

/-- The action that a catalog describes. -/
def actionOf (v : Value) : Except Fault Action := do
  let es ← fields v
  let code ← (← member es "code").toInt
  let name ← member es "name"
  let delay ← (es.getD "delay" (.int 0)).toInt
  return {
    name := .text name.toText
    code := .int code
    delay := .int delay
    down := es.getD "dn" (.int 1)
    up := es.getD "up" (.int 0) }

/-- The device that a catalog describes. -/
def deviceOf (strict : Bool) (v : Value) : Except Fault Device := do
  let es ← fields v
  let id ← (← member es "id").toInt
  let name ← member es "name"
  let actions ← (es.getD "actions" (.list [])).items
  actions.foldlM (fun d a => do d.insert (← actionOf a))
    { id := .int id, name := .text name.toText, strict := strict }

/-- The airframe that a catalog describes. -/
def ofCatalog (data : Value) (strict : Bool := false) : Op Log.Journal Airframe := do
  match data with
  | .object es =>
    let name := (Entries.getD es "airframe" (.text "")).toText
    let devices ← (Entries.getD es "devices" (.list [])).items
    let a ← devices.foldlM (fun (a : Airframe) d => do a.register (← deviceOf strict d))
      { name := .text name }
    Log.say .airframe .info s!"Loaded {a.devices.length} devices for airframe {name}"
    return a
  | _ => .stop .noMember

end Airframe

end Cockpit
