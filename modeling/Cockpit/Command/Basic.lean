import Cockpit.Value.Convert

/-!
# Commands

The commands that a remote cockpit interpreter runs.  Ten kinds have a payload.
The blank command has none and cannot be sent.

The interpreter runs a stream in one pass.  So a block is not nested data but an
opening and a closing command with the same condition.  Fields are untyped,
since they come from catalogs and authors.  Arguments are texts already.
-/

namespace Cockpit

/-- One press of a control: set it to `down`, hold it for `delay`, set it to `up`. -/
structure Press where
  device : Value
  code : Value
  down : Value
  up : Value := .int 0
  /-- Milliseconds between the two settings. -/
  delay : Value := .int 0
  /-- Milliseconds to wait after the press. -/
  postWait : Value := .int 0
  deriving DecidableEq, Inhabited

/-- The press with another wait after it, none if it would not be positive. -/
def Press.thenWait (p : Press) (wait : Value) : Except Fault Press :=
  wait.toInt.map fun n => { p with postWait := .int (max 0 n) }

/-- A command of an instruction stream. -/
inductive Command where
  /-- A command without a payload. -/
  | blank
  /-- Press a control. -/
  | action (press : Press)
  /-- Pause for a number of milliseconds. -/
  | wait (delay : Value)
  /-- Leave a mark that telemetry reports back. -/
  | marker (mark : Value)
  /-- Evaluate a function and answer through telemetry. -/
  | query (fn : Value) (args : List String)
  /-- Call a procedure. -/
  | exec (fn : Value) (args : List String) (postWait : Value)
  /-- Stop the stream. -/
  | abort (message : Value)
  /-- Open a block that runs only if a condition is as expected. -/
  | openIf (condition expected : Value) (args : List String)
  | closeIf (condition : Value)
  /-- Open a block that repeats while a condition is as expected, at most `timeout` times. -/
  | openWhile (condition expected timeout : Value) (args : List String)
  | closeWhile (condition : Value)
  deriving DecidableEq, Inhabited

namespace Command

/-- Messages with this start are shown to the user. -/
def errorPrefix : String := "ERROR: "

/-- The name of a command's kind on the wire. -/
def tag : Command → String
  | .blank => ""
  | .action _ => "Actn"
  | .wait _ => "Wait"
  | .marker _ => "Mark"
  | .query _ _ => "Query"
  | .exec _ _ _ => "Exec"
  | .abort _ => "Abort"
  | .openIf _ _ _ => "If"
  | .closeIf _ => "EndIf"
  | .openWhile _ _ _ _ => "While"
  | .closeWhile _ => "EndWhile"

def isQuery : Command → Bool
  | .query _ _ => true
  | _ => false

/-- Whether an abort is shown to the user. -/
def isShown (message : Value) : Except Fault Bool :=
  message.textMember.map fun s => errorPrefix.toList.isPrefixOf s.toList

/-- The wait that trails a command on the wire, if it can have one. -/
def postWait? : Command → Option Value
  | .action p => some p.postWait
  | .exec _ _ w => some w
  | _ => none

/-! ## Comparison -/

/-- Whether two presses agree in every field by value. -/
def samePress (p q : Press) : Bool :=
  p.device.same q.device && p.code.same q.code && p.down.same q.down && p.up.same q.up
    && p.delay.same q.delay && p.postWait.same q.postWait

/-- Whether two commands have one kind and agree in every field by value. -/
def same : Command → Command → Bool
  | .blank, .blank => true
  | .action p, .action q => samePress p q
  | .wait d, .wait e => d.same e
  | .marker m, .marker n => m.same n
  | .query f xs, .query g ys => f.same g && xs == ys
  | .exec f xs w, .exec g ys v => f.same g && xs == ys && w.same v
  | .abort m, .abort n => m.same n
  | .openIf c e xs, .openIf d f ys => c.same d && e.same f && xs == ys
  | .closeIf c, .closeIf d => c.same d
  | .openWhile c e t xs, .openWhile d f u ys => c.same d && e.same f && t.same u && xs == ys
  | .closeWhile c, .closeWhile d => c.same d
  | _, _ => false

end Command

end Cockpit
