import Cockpit.Session.Feed
import Cockpit.Session.Query
import Cockpit.Session.Upload

/-!
# Session programs

What is done in a session, as data.  A deed that sends says what happens while
its payload is on the way: further deeds, and how the sender ends.  So a query
can be answered, closed or followed by another one while it is outstanding.

A deed is run by recursion on it.  The deeds meanwhile are attempts, and how
they end is noted with the payload.
-/

namespace Cockpit

/-- How a sender ends. -/
inductive Ending where
  | gives (result : Value)
  | fails (fault : Fault)

/-- What the sender gives back. -/
def Ending.result : Ending → Except Fault Value
  | .gives v => .ok v
  | .fails f => .error f

/-- One thing that is done in a session.  Those that send hold what is done meanwhile. -/
inductive Deed where
  /- Queries -/
  | query (fn args wait : Value) (meanwhile : List Deed) (ending : Ending)
  | ask (stream : Stream) (wait : Value) (meanwhile : List Deed) (ending : Ending)
  /-- A query that is given up once it was sent. -/
  | abandonedQuery (fn args : Value) (meanwhile : List Deed) (ending : Ending)
  /-- The query of a builder, which gets the bridge of the session or not. -/
  | askWith (builder : Target) (connected : Bool) (wait : Value) (meanwhile : List Deed)
      (ending : Ending)
  /-- The query of a builder, strict if the settings say so. -/
  | askUnderSettings (builder : Target) (wait : Value) (meanwhile : List Deed) (ending : Ending)
  /- The bridge -/
  /-- An answer arrives. -/
  | respond (response : Value)
  | close
  | reopen
  /-- Look at the bridge. -/
  | lineState
  /- Builders and agents -/
  | builderStep (builder : Target) (step : Step)
  | inspect (builder : Target)
  | composeStream (agent : String) (context : Value)
  | sendUpload (agent : String) (context : Value) (meanwhile : List Deed) (ending : Ending)
  | agentStatus (agent : String)
  | upload (agent : String) (meanwhile : List Deed) (ending : Ending)
  /- The session -/
  /-- A raw telemetry packet arrives. -/
  | telemetry (raw : Value)
  | stop
  | strictActions
  | configure (act : Config.Act)
  | fail (fault : Fault)
  deriving Inhabited

namespace Session

/-! ## Senders -/

/-- The session after a payload was handed over. -/
def transmit (payload : String) (s : Session) : Session :=
  { s with transmissions := s.transmissions ++ [{ payload }] }

/-- The session after a deed ended while a payload was on the way. -/
def note (place : Nat) (r : Except Fault Answer) (s : Session) : Session :=
  { s with transmissions := s.transmissions.modify place fun t =>
      { t with meanwhile := t.meanwhile ++ [r] } }

/-- The sender of a deed, given what is done meanwhile with the place of the payload. -/
def sender (meanwhile : Nat → Op Session Unit) (ending : Ending) : Sender := fun payload => do
  let place := (← .state).transmissions.length
  .update (transmit payload)
  meanwhile place
  ending.result

/-! ## Deeds without a sender -/

/-- The place of a builder. -/
def findBuilder (t : Target) : Op Session BuilderId := (Workshop.find t).on workshopPart

/-- Runs a step on a builder, outside of any context. -/
def runStep (t : Target) (step : Step) : Op Session Answer := do
  let id ← findBuilder t
  return .builder (← (step.run Workshop.build id .null).on workshopPart)

/-- The stream of an agent as tags and text. -/
def showStream (agent : String) (context : Value) : Op Session Answer := do
  let stream ← composeStream agent context
  return .stream (stream.map Command.tag) (← stream.framed)

/-- What is known of the bridge. -/
def lineState (s : Session) : Answer := .line s.bridge.isAwaiting s.bridge.closed

end Session

open Session (sender linePart workshopPart configPart findBuilder) in
mutual

/-- Does a deed. -/
def Deed.run : Deed → Op Session Answer
  | .query fn args wait ds e => do
    return .value (← Session.query (sender (Deed.runAll ds) e) fn args wait)
  | .ask stream wait ds e => do
    return .value (← Session.ask (sender (Deed.runAll ds) e) stream wait)
  | .abandonedQuery fn args ds e => do
    let done ← Session.abandonedQuery (sender (Deed.runAll ds) e) fn args
    return .cancelled done (← .state).bridge.isAwaiting
  | .askWith t connected wait ds e => do
    let id ← findBuilder t
    if connected then Session.connect id
    return .value (← Session.askWith (sender (Deed.runAll ds) e) id wait)
  | .askUnderSettings t wait ds e => do
    let id ← findBuilder t
    return .value (← Session.askUnderSettings (sender (Deed.runAll ds) e) id wait)
  | .respond r => do return .flag (← Session.answer r)
  | .close => do
    Line.close.on linePart
    return .nothing
  | .reopen => do
    (Line.change Bridge.reopen).on linePart
    return .nothing
  | .lineState => do return Session.lineState (← .state)
  | .builderStep t step => Session.runStep t step
  | .inspect t => do
    let id ← findBuilder t
    return .builder (← (Workshop.read id Builder.view).on workshopPart)
  | .composeStream a context => Session.showStream a context
  | .sendUpload a context ds e => do
    return .flag (← Session.sendUpload (sender (Deed.runAll ds) e) a context)
  | .agentStatus a => do
    let a ← Session.findAgent a
    return .agent a.uploadsSent a.uploadFailures a.strict
  | .upload a ds e => do return .flag (← Session.upload (sender (Deed.runAll ds) e) a)
  | .telemetry raw => do return .packet (← Session.receive raw)
  | .stop => do
    Session.stop
    return .nothing
  | .strictActions => do return .flag (← .state).strictActions
  | .configure act => do return .config (← act.run.on configPart)
  | .fail f => .stop f
termination_by structural d => d

/-- Does deeds one after another while the payload at a place is on the way. -/
def Deed.runAll : List Deed → Nat → Op Session Unit
  | [], _ => return ()
  | d :: ds, place => do
    let r ← d.run.attempt
    .update (Session.note place r)
    Deed.runAll ds place
termination_by structural ds => ds

end

/-! ## Starting -/

namespace Session

/-- A session around a bridge alone. -/
def ofBridge (host : Host) (bridge : Bridge) (workshop : Workshop)
    (agents : List (String × Agent)) : Session :=
  { toWorkshop := { workshop with journal := host.journal }
    files := host.files
    handlers := host.handlers
    bridge
    agents }

/-- Loads the settings of a session, sets logging up if asked to, and opens the
bridge as the settings say. -/
def start (path : Value) (logging : Bool) : Op Session Unit := do
  .update fun s => { s with configPath := (Config.start ⟨s.files, [], {}⟩ path).path }
  let _ ← (Config.load .null).on configPart
  if logging then Config.setUpLogging.on configPart
  .update fun s =>
    { s with bridge := { timeout := s.settings.timeout, logStreams := s.settings.logStreams } }

end Session

end Cockpit
