import Cockpit.Builder.Call
import Cockpit.Keypad
import Cockpit.Stream

/-!
# Builders

A builder owns a stream and appends commands to it.  It may know an airframe
to look devices up in.  It remembers the conditions of the blocks that are open, so
that no block reuses one.

`Builder.apply` performs a call.  A call that fails leaves the builder as it
was.  A strict builder requires every action to be known, on devices that are
lenient too.

A stream carries at most one query, since responses name no query.
-/

namespace Cockpit

/-- What a builder does when it is asked to build. -/
inductive BuilderKind where
  /-- It has nothing to build. -/
  | plain
  /-- It leads an upload in. -/
  | setup
  /-- It closes an upload. -/
  | teardown
  /-- It adds its own query. -/
  | query
  /-- It runs a program. -/
  | script
  /-- It runs a program and then adds its own query. -/
  | scriptQuery
  deriving DecidableEq, Repr, Inhabited

namespace BuilderKind

/-- The name of the kind in messages. -/
def name : BuilderKind → String
  | .plain => "CommandBuilder"
  | .setup => "CoreSetupBuilder"
  | .teardown => "CoreTeardownBuilder"
  | .query => "QueryBuilder"
  | .script => "ScriptBuilder"
  | .scriptQuery => "ScriptQueryBuilder"

/-- Whether a builder of the kind has a query of its own. -/
def asks : BuilderKind → Bool
  | .query | .scriptQuery => true
  | _ => false

end BuilderKind

/-- A builder. -/
structure Builder where
  kind : BuilderKind := .plain
  airframe : Option Airframe := none
  /-- Whether every action must be known. -/
  strict : Bool := false
  stream : Stream := []
  /-- The conditions of the open blocks, outermost first. -/
  openConditions : List Value := []
  /-- The function of its own query. -/
  fn : Value := .null
  /-- The arguments of its own query. -/
  args : List Value := []
  /-- Whether it has been given a bridge to send through. -/
  bridged : Bool := false
  deriving DecidableEq, Inhabited

/-- What a call gives back. -/
inductive Reply where
  | nothing
  | flag (b : Bool)
  | device (d : Device)
  | commands (s : Stream)
  /-- A builder seen from outside: its length, strictness and text. -/
  | view (length : Nat) (strict : Bool) (text : Except Fault String)

/-! ## Named waits -/

namespace Pause

/-- No wait. -/
def none : Int := 0

/-- Milliseconds for a control to settle. -/
def short : Int := 100

/-- Milliseconds after a usual button press. -/
def base : Int := 200

/-- Milliseconds after a change of page or mode. -/
def long : Int := 600

/-- Milliseconds for an alignment. -/
def veryLong : Int := 17000

end Pause

namespace Builder

/-! ## Presses -/

/-- Fails if the builder is strict and the device lacks an action. -/
def checkName (b : Builder) (d : Device) (name : Value) : Except Fault Unit :=
  if b.strict then d.require [name] else .ok ()

/-- The press of a named action, if the device has it. -/
def pressNamed (b : Builder) (d : Device) (name wait : Value) :
    Op Log.Journal (Option Press) := do
  b.checkName d name
  d.command name wait

/-- The presses of the actions that the device has, in order. -/
def pressAll (b : Builder) (d : Device) : List Value → Op Log.Journal (List Press)
  | [] => return []
  | n :: ns => do
    let p ← b.pressNamed d n (.int 0)
    let ps ← b.pressAll d ns
    return p.toList ++ ps

/-- The last of some presses with a wait after it. -/
def waitAfterLast (wait : Value) : List Press → Except Fault (List Press)
  | [] => .ok []
  | [p] => do return [← p.thenWait wait]
  | p :: q :: ps => do return p :: (← waitAfterLast wait (q :: ps))

/-- A wait as a command, if it is positive. -/
def waitCommand (delay : Value) : Except Fault (List Command) := do
  return if ← delay.isPositive then [.wait delay] else []

/-- The commands of actions in order with one wait at the end. -/
def actionCommands (b : Builder) (d : Device) (names : List Value) (wait : Value) :
    Op Log.Journal (List Command) := do
  let ps ← b.pressAll d names
  if ps.isEmpty then waitCommand wait
  else if ← wait.isPositive then return (← waitAfterLast wait ps).map .action
  else return ps.map .action

/-- Copies of a name. -/
def copies (name count : Value) : Except Fault (List Value) :=
  match count.wholeNumber? with
  | some n => if Int.pow 2 63 ≤ n then .error .overflow else .ok (List.replicate n.toNat name)
  | none => .error .wrongType

/-! ## Airframe -/

/-- The device of a name. -/
def lookUp (b : Builder) (name : Value) : Except Fault Device :=
  match b.airframe with
  | some r => r.device name
  | none => .error (.noAirframe b.kind.name)

/-- The device of a source.  One that the author holds needs no airframe. -/
def device (b : Builder) : DeviceSource Value → Except Fault Device
  | .named name => b.lookUp name
  | .held d => .ok d

/-! ## Calls -/

/-- The builder with more commands. -/
def append (b : Builder) (cs : List Command) : Builder := { b with stream := b.stream ++ cs }

/-- The builder with an empty stream. -/
def clear (b : Builder) : Builder := { b with stream := [] }

/-- The query that a call adds, unless the stream has one. -/
def queryCommand (b : Builder) (fn args : Value) : Except Fault Command := do
  if b.stream.queries ≠ 0 then .error (.secondQuery fn)
  else return .query fn (← args.arguments)

/-- The commands that a call appends. -/
def commandsOf (b : Builder) : Call Value → Op Log.Journal (List Command)
  | .action d n w => do
    let p ← b.pressNamed (← b.device d) n w
    return p.toList.map .action
  | .customAction d n x y t w => do
    let d ← b.device d
    b.checkName d n
    let p ← d.adaptedPress? n t x y w
    return p.toList.map .action
  | .actions d ns ps w => do
    let d ← b.device d
    let ns ← ns.itemsIfSet
    let ps ← ps.itemsIfSet
    b.actionCommands d (ns ++ ps) w
  | .repeatAction d n c w => do
    let d ← b.device d
    if ← c.isBelow (.int 1) then return []
    else b.actionCommands d (← copies n c) w
  | .wait t => waitCommand t
  | .marker m => return [.marker m]
  | .abort m => return [.abort m]
  | .errorAbort m => return [.abort (.text (Command.errorPrefix ++ m.toText))]
  | .exec fn args w => do
    let w ← w.clampWait
    return [.exec fn (← args.arguments) w]
  | .query fn args => do return [← b.queryCommand fn args]
  | .typeText d v w => do
    let d ← b.device d
    b.actionCommands d (← Keypad.textKeys v) w
  | .typeCoordinate d v w => do
    let d ← b.device d
    b.actionCommands d (← Keypad.coordinateKeys v) w
  | .typeNumber d v enter signed clean w => do
    let d ← b.device d
    if !v.isSet then return []
    else
      let keys ← Keypad.numberKeys clean.isSet v signed.isSet
      b.actionCommands d (keys ++ if enter.isSet then [enter] else []) w
  | _ => return []

/-- The builder after a call, and what the call gives back. -/
def apply (b : Builder) : Call Value → Op Log.Journal (Builder × Reply)
  | .clear => return (b.clear, .nothing)
  | .device n => do return (b, .device (← b.lookUp n))
  | .truncate n => do return ({ b with stream := ← b.stream.truncate n }, .nothing)
  | .commands => return (b, .commands b.stream)
  | .setStrict v => return ({ b with strict := v.isSet }, .nothing)
  | .misuse none => .stop .wrongType
  | .misuse (some d) => do
    let _ ← b.lookUp d
    .stop .wrongType
  | .typeNumber d v e s c w => do
    let cs ← b.commandsOf (.typeNumber d v e s c w)
    return (b.append cs, .flag v.isSet)
  | c => do
    let cs ← b.commandsOf c
    return (b.append cs, .nothing)

/-! ## Building -/

/-- The mark that starts an upload. -/
def uploadStart : String := "<upload_prog>"

/-- The mark that ends an upload. -/
def uploadEnd : String := ""

/-- The procedure that does nothing. -/
def noProcedure : String := "NOP"

/-- The commands that lead an upload in. -/
def setupCommands (b : Builder) : List Command :=
  [.exec (.text noProcedure) [s!"==== {b.kind.name}:build()"] (.int 0),
    .marker (.text uploadStart)]

/-- The commands that close an upload. -/
def teardownCommands : List Command := [.marker (.text uploadEnd)]

/-- The builder with its own query. -/
def addOwnQuery (b : Builder) : Except Fault Builder := do
  if !b.fn.isSet then .error (.noQueryFunction b.kind.name)
  else return b.append [← b.queryCommand b.fn (.list b.args)]

/-- The builder as seen from outside. -/
def view (b : Builder) : Reply := .view b.stream.length b.strict b.stream.write

end Builder

end Cockpit
