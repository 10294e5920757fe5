import Cockpit.Session.Basic

/-!
# Queries

A query stream holds exactly one query.  The query takes the slot of the bridge,
its stream is sent, and it answers what arrived while it was being sent.  The
slot is given back whatever happened.

A query builder builds when its stream is empty, and its stream is then sent as
a query stream.
-/

namespace Cockpit.Session

/-- Sends the stream of a query that holds the slot.  Tells whether it was delivered. -/
def deliverQuery (send : Sender) (stream : Stream) : Op Session Bool := do
  let payload ← stream.framed
  if (← .state).bridge.logStreams.isSet then
    (Line.say .debug s!"Query stream ({payload.length} chars): {payload}").on linePart
  deliver send payload .queryBridge "query"

/-- The seconds that a query waits. -/
def waitOf (wait : Value) (b : Bridge) : Value := if wait = .null then b.timeout else wait

/-- The answer to a query that holds the slot. -/
def complete (send : Sender) (stream : Stream) (wait : Value) (t : Ticket) : Op Session Value :=
  let ask : Op Session Value := do
    if ← deliverQuery send stream then (Line.conclude t wait).on linePart
    else Line.sendFailed.on linePart
  ask.ensure fun s => { s with bridge := s.bridge.release t }

/-- The answer to a query, null without one. -/
def ask (send : Sender) (stream : Stream) (wait : Value) : Op Session Value := do
  if stream.queries ≠ 1 then .stop (.notOneQuery stream.queries)
  else
    let wait := waitOf wait (← .state).bridge
    match ← Line.claim.on linePart with
    | none => return .null
    | some t => complete send stream wait t

/-- The stream of a query function. -/
def queryOf (fn args : Value) : Except Fault Stream := do
  return [.query fn (← args.arguments)]

/-- The answer to a query function. -/
def query (send : Sender) (fn args wait : Value) : Op Session Value := do
  ask send (← queryOf fn args) wait

/-- A query function that is given up once its stream was sent.  Tells whether it
was still waiting. -/
def abandonedQuery (send : Sender) (fn args : Value) : Op Session Bool := do
  let stream ← queryOf fn args
  match ← Line.claim.on linePart with
  | none => return false
  | some t =>
    let giveUp : Op Session Bool := do
      if ← deliverQuery send stream then
        let waiting := (← .state).bridge.slot == some t
        if waiting then (Line.cancel t).on linePart
        let _ ← (Line.conclude t .null).on linePart
        return waiting
      else
        let _ ← Line.sendFailed.on linePart
        return false
    giveUp.ensure fun s => { s with bridge := s.bridge.release t }

/-! ## Query builders -/

/-- The answer to the query of a builder. -/
def askWith (send : Sender) (id : BuilderId) (wait : Value) : Op Session Value := do
  let b ← (Workshop.read id fun b => b).on workshopPart
  if !b.kind.asks then .stop .noMember
  else if !b.bridged then .stop (.noBridge b.kind.name)
  else
    if b.stream.isEmpty then (Workshop.build id .null).on workshopPart
    let stream ← (Workshop.read id Builder.stream).on workshopPart
    say .queryBuilder .debug s!"{b.kind.name} submitting {stream.length} commands"
    ask send stream wait

/-- Gives a builder the bridge of the session. -/
def connect (id : BuilderId) : Op Session Unit :=
  (Workshop.change id fun b => { b with bridged := true }).on workshopPart

/-- The answer to the query of a builder, strict if the settings say so. -/
def askUnderSettings (send : Sender) (id : BuilderId) (wait : Value) : Op Session Value := do
  connect id
  let strict ← (Workshop.read id Builder.strict).on workshopPart
  let required := (← .state).strictActions
  let setStrict (b : Bool) : Workshop → Workshop :=
    Workshop.changeBuilder id fun n => { n with strict := b }
  (Op.update (setStrict (strict || required))).on workshopPart
  (askWith send id wait).ensure fun s => { s with toWorkshop := setStrict strict s.toWorkshop }

end Cockpit.Session
