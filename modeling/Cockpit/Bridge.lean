import Cockpit.Log
import Cockpit.Value.Convert

/-!
# The query bridge

A query goes out with a stream, and its answer comes back later in a telemetry
packet.  Answers do not tell which query they belong to.  So the bridge has one
slot, which a query holds from before it is sent until it is answered, given up
or over.  The first answer that arrives meanwhile is the answer.

Every query that gets the slot has a ticket, the number of queries that had it
before.  The fate of a ticket is settled at most once: by an answer, or by
giving it up.

The bridge is a state of its own, and sending is not its matter.  A query is
`claim`, then sending by someone who may use the bridge meanwhile, then
`conclude` or `sendFailed`, and last `release`.
-/

namespace Cockpit

/-- The number of a query that got the slot. -/
abbrev Ticket := Nat

/-- What became of a query. -/
inductive Fate where
  | pending
  | answered (response : Value)
  | cancelled
  deriving DecidableEq

/-- The slot, the fates of all queries that had it, and counts. -/
structure Bridge where
  /-- The seconds to wait for an answer unless a query says otherwise. -/
  timeout : Value
  /-- Whether outgoing streams are logged. -/
  logStreams : Value := .bool false
  closed : Bool := false
  /-- The query that waits for its answer. -/
  slot : Option Ticket := none
  /-- The fates of the tickets in order. -/
  fates : List Fate := []
  queriesSent : Nat := 0
  responsesReceived : Nat := 0
  timeouts : Nat := 0
  sendFailures : Nat := 0
  /-- Answers that nobody waited for. -/
  strayResponses : Nat := 0
  deriving DecidableEq

namespace Bridge

/-- Whether a query waits for its answer. -/
def isAwaiting (b : Bridge) : Bool := b.slot.isSome

/-- Whether a query was ever answered. -/
def hasResponded (b : Bridge) : Bool := b.responsesReceived != 0

/-- What became of a ticket. -/
def fate (b : Bridge) (t : Ticket) : Fate := b.fates[t]?.getD .pending

/-! ## Changes of the slot -/

/-- The bridge after a query took the slot. -/
def take (b : Bridge) : Bridge :=
  { b with slot := some b.fates.length, fates := b.fates ++ [.pending] }

/-- The bridge after a ticket was settled, which leaves the slot empty. -/
def settle (t : Ticket) (f : Fate) (b : Bridge) : Bridge :=
  { b with slot := none, fates := b.fates.set t f }

/-- The bridge after a ticket was given back, if it still held the slot. -/
def release (t : Ticket) (b : Bridge) : Bridge :=
  if b.slot = some t then { b with slot := none } else b

/-! ### What they do to the slot and the fates -/

@[simp] theorem slot_take (b : Bridge) : b.take.slot = some b.fates.length := rfl

@[simp] theorem slot_settle (t : Ticket) (f : Fate) (b : Bridge) : (b.settle t f).slot = none := rfl

@[simp] theorem fate_take_self (b : Bridge) : b.take.fate b.fates.length = .pending := by
  simp [fate, take]

theorem fate_take_of_lt {b : Bridge} {t : Ticket} (h : t < b.fates.length) :
    b.take.fate t = b.fate t := by
  simp [fate, take, List.getElem?_append_left h]

theorem fate_settle_self {b : Bridge} {t : Ticket} (h : t < b.fates.length) (f : Fate) :
    (b.settle t f).fate t = f := by
  simp [fate, settle, h]

theorem fate_settle_of_ne {t u : Ticket} (h : u ≠ t) (f : Fate) (b : Bridge) :
    (b.settle t f).fate u = b.fate u := by
  simp [fate, settle, List.getElem?_set_ne (Ne.symm h)]

@[simp] theorem fate_release (t u : Ticket) (b : Bridge) : (b.release t).fate u = b.fate u := by
  unfold release
  split <;> rfl

theorem slot_release_ne (t : Ticket) (b : Bridge) : (b.release t).slot ≠ some t := by
  unfold release
  split
  · exact nofun
  · assumption

/-! ## Closing and counting -/

/-- The bridge that takes no more queries. -/
def close (b : Bridge) : Bridge := { b with closed := true }

/-- The bridge that takes queries again. -/
def reopen (b : Bridge) : Bridge := { b with closed := false }

/-- The bridge after a stream was sent. -/
def countSent (b : Bridge) : Bridge := { b with queriesSent := b.queriesSent + 1 }

/-- The bridge after a query got its answer. -/
def countReceived (b : Bridge) : Bridge := { b with responsesReceived := b.responsesReceived + 1 }

/-- The bridge after a query waited in vain. -/
def countTimeout (b : Bridge) : Bridge := { b with timeouts := b.timeouts + 1 }

/-- The bridge after a stream could not be sent. -/
def countFailure (b : Bridge) : Bridge := { b with sendFailures := b.sendFailures + 1 }

/-- The bridge after an answer that nobody waited for. -/
def countStray (b : Bridge) : Bridge := { b with strayResponses := b.strayResponses + 1 }

end Bridge

/-! ## Operations -/

/-- A bridge with the journal that it writes. -/
structure Line where
  bridge : Bridge
  journal : Log.Journal := {}

namespace Line

def journalPart : Op.Part Line Log.Journal where
  get l := l.journal
  set j l := { l with journal := j }

/-- Logs a text about queries. -/
def say (level : Log.Level) (text : String) : Op Line Unit :=
  (Log.say .queryBridge level text).on journalPart

/-- Changes the bridge. -/
def change (f : Bridge → Bridge) : Op Line Unit :=
  .update fun l => { l with bridge := f l.bridge }

/-- Takes the slot.  A closed bridge gives no ticket. -/
def claim : Op Line (Option Ticket) := do
  let b := (← .state).bridge
  if b.closed then
    say .info "Query bridge is shut down, query dropped"
    return none
  else if b.isAwaiting then .stop .queryInFlight
  else
    change Bridge.take
    return some b.fates.length

/-- Settles a ticket without an answer. -/
def cancel (t : Ticket) : Op Line Unit := do
  change (Bridge.settle t .cancelled)
  say .info "Cancelled in-flight query"

/-! ### Waiting -/

/-- The most seconds that a clock can wait, as an integer. -/
def waitLimit : Int := 9223372036

/-- Waits for an answer in vain.  A wait that is not positive is over at once. -/
def waitInVain (wait : Value) : Except Fault Unit := do
  if ← wait.isPositive then
    if ← wait.isAbove (.int waitLimit) then .error .overflow

/-- How many places the seconds of a wait have in messages. -/
def secondPlaces : Nat := 2

/-- What a query answers after its stream was sent. -/
def conclude (t : Ticket) (wait : Value) : Op Line Value := do
  change Bridge.countSent
  match (← .state).bridge.fate t with
  | .answered r =>
    change Bridge.countReceived
    return r
  | .cancelled =>
    say .info "Query abandoned before a response arrived"
    return .null
  | .pending =>
    waitInVain wait
    change Bridge.countTimeout
    let seconds ← wait.toDouble
    say .warning s!"Query response timed out after {seconds.fixed secondPlaces}s"
    return .null

/-- What a query answers when its stream could not be sent. -/
def sendFailed : Op Line Value := do
  change Bridge.countFailure
  say .error "Query failed to send, aborting"
  return .null

/-! ### Answers -/

/-- How much of an answer is logged. -/
def excerptLength : Nat := 100

/-- The beginning of an answer. -/
def excerpt : Value → Except Fault String
  | .text s => .ok (String.ofList (s.toList.take excerptLength))
  | .list xs => .ok (Value.list (xs.take excerptLength)).toText
  | _ => .error .wrongType

/-- Hands an answer to the query that waits.  Tells whether there was one. -/
def answer (response : Value) : Op Line Bool := do
  if !response.isSet then return false
  else
    match (← .state).bridge.slot with
    | some t =>
      change (Bridge.settle t (.answered response))
      return true
    | none =>
      change Bridge.countStray
      say .debug s!"Ignoring response with no outstanding query: {← excerpt response}"
      return false

/-! ### Closing -/

/-- Gives up the query that waits and takes no new ones. -/
def close : Op Line Unit := do
  change Bridge.close
  match (← .state).bridge.slot with
  | some t => cancel t
  | none => pure ()

end Line

end Cockpit
