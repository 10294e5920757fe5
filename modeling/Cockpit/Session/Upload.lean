import Cockpit.Session.Basic

/-!
# Uploads

An upload is one stream: a setup, the systems of the airframe, and a teardown.
An agent composes it on a builder of its own and sends it in one piece.

A session counts the uploads that were delivered.  Once it is stopped, it takes
none.
-/

namespace Cockpit.Session

/-- The agent of a name. -/
def findAgent (name : String) : Op Session Agent := do
  match (← .state).agents.lookup name with
  | some a => return a
  | none => .stop (.missingKey name)

/-- The session with the agent of a name changed. -/
def changeAgent (name : String) (f : Agent → Agent) (s : Session) : Session :=
  { s with agents := s.agents.map fun e => if e.1 = name then (e.1, f e.2) else e }

/-- Composes the stream of an upload on a new builder. -/
def compose (a : Agent) (context : Value) : Op Workshop Stream := do
  let id ← Workshop.add ⟨{ strict := a.strict }, []⟩
  Workshop.splice Workshop.build id (← Workshop.find a.setup) context
  Program.run Workshop.build id context a.systems
  Workshop.splice Workshop.build id (← Workshop.find a.teardown) context
  Workshop.read id Builder.stream

/-- The stream of an agent. -/
def composeStream (name : String) (context : Value) : Op Session Stream := do
  (compose (← findAgent name) context).on workshopPart

/-- Composes an upload and sends it.  Tells whether it was delivered, as an empty one
counts too. -/
def sendUpload (send : Sender) (name : String) (context : Value) : Op Session Bool := do
  let stream ← composeStream name context
  if stream.isEmpty then
    say .uploadAgent .info "Upload stream is empty, nothing to send"
    return true
  else
    let payload ← stream.framed
    if (← findAgent name).logStreams then
      say .uploadAgent .debug s!"Upload stream ({stream.length} commands): {payload}"
    if ← deliver send payload .uploadAgent "upload" then
      .update (changeAgent name fun a => { a with uploadsSent := a.uploadsSent + 1 })
      say .uploadAgent .info
        s!"Upload sent: {stream.length} commands, {payload.length} chars"
      return true
    else
      .update (changeAgent name fun a => { a with uploadFailures := a.uploadFailures + 1 })
      say .uploadAgent .error "Upload failed to send"
      return false

/-- Runs an agent, strict if the settings say so. -/
def upload (send : Sender) (name : String) : Op Session Bool := do
  let s ← .state
  if !s.running then
    say .uplink .warning "Uplink is stopped, upload dropped"
    return false
  else
    let strict := (← findAgent name).strict
    let setStrict (b : Bool) : Session → Session :=
      changeAgent name fun a => { a with strict := b }
    .update (setStrict (strict || s.strictActions))
    if ← (sendUpload send name .null).ensure (setStrict strict) then
      .update fun s => { s with uploadsSent := s.uploadsSent + 1 }
      return true
    else
      .update fun s => { s with errorCount := s.errorCount + 1 }
      return false

end Cockpit.Session
