import Cockpit.Bridge
import Cockpit.Builder.Run
import Cockpit.Settings.Act
import Cockpit.Telemetry

/-!
# Sessions

A session with the simulation holds everything that takes part in it: the
workshop with its builders, the host with its files and logs, the query bridge,
the upload agents, the decoder of telemetry, and the settings.  There is one
journal, which all of them write.

The parts say where the operations of each of these act.
-/

namespace Cockpit

/-- Composes uploads of an airframe and sends them. -/
structure Agent where
  /-- Whether outgoing streams are logged. -/
  logStreams : Bool := false
  /-- Whether every action must be known. -/
  strict : Bool := false
  /-- The builder that leads an upload in. -/
  setup : Target := .fresh .setup false false .null .null []
  /-- The steps between. -/
  systems : Program := []
  /-- The builder that closes an upload. -/
  teardown : Target := .fresh .teardown false false .null .null []
  uploadsSent : Nat := 0
  uploadFailures : Nat := 0
  deriving Inhabited

/-- What a deed in a session gives back. -/
inductive Answer where
  | nothing
  | flag (b : Bool)
  /-- The answer to a query, or null. -/
  | value (v : Value)
  /-- Whether a query waits, and whether the bridge is closed. -/
  | line (awaiting closed : Bool)
  /-- Whether a query was given up, and whether one waits. -/
  | cancelled (done awaiting : Bool)
  | packet (p : Option Telemetry.Packet)
  | builder (r : Reply)
  | stream (tags : List String) (wire : String)
  | agent (uploadsSent uploadFailures : Nat) (strict : Bool)
  | config (r : Config.Reply)

/-- A payload that was handed to the sender, and how the deeds meanwhile ended. -/
structure Transmission where
  payload : String
  meanwhile : List (Except Fault Answer) := []

/-- Everything that takes part in a session. -/
structure Session extends Workshop where
  files : Files.Tree
  handlers : List Handler := []
  bridge : Bridge
  agents : List (String × Agent) := []
  transmissions : List Transmission := []
  settings : Settings := {}
  /-- The path of the settings file. -/
  configPath : Value := .null
  decoder : Telemetry.Decoder := {}
  /-- Whether the session has not been stopped. -/
  running : Bool := true
  /-- Telemetry that was refused and uploads that failed. -/
  errorCount : Nat := 0
  uploadsSent : Nat := 0

namespace Session

/-! ## Parts -/

def workshopPart : Op.Part Session Workshop where
  get s := s.toWorkshop
  set w s := { s with toWorkshop := w }

def hostPart : Op.Part Session Host where
  get s := ⟨s.files, s.handlers, s.journal⟩
  set h s := { s with files := h.files, handlers := h.handlers, journal := h.journal }

def configPart : Op.Part Session Config where
  get s := ⟨⟨s.files, s.handlers, s.journal⟩, s.configPath, s.settings⟩
  set c s := { s with
    files := c.host.files
    handlers := c.host.handlers
    journal := c.host.journal
    configPath := c.path
    settings := c.settings }

def linePart : Op.Part Session Line where
  get s := ⟨s.bridge, s.journal⟩
  set l s := { s with bridge := l.bridge, journal := l.journal }

/-- Logs a text. -/
def say (source : Log.Source) (level : Log.Level) (text : String) : Op Session Unit :=
  (Workshop.logged (Log.say source level text)).on workshopPart

/-! ## Sending -/

/-- Hands a payload to the simulation.  What comes back counts as delivered if it is set. -/
abbrev Sender := String → Op Session Value

/-- Whether a payload was delivered.  A lost connection is reported and counts as not. -/
def deliver (send : Sender) (payload : String) (source : Log.Source) (what : String) :
    Op Session Bool :=
  let attempt : Op Session Bool := do return (← send payload).isSet
  attempt.recover Fault.isTransport fun f => do
    say source .error s!"Transport error sending {what}: {f.message}"
    return false

/-- Whether actions must be known, as the settings say. -/
def strictActions (s : Session) : Bool := s.settings.strictActions.isSet

end Session

end Cockpit
