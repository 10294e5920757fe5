import Cockpit.Proofs.Bridge.History
import Mathlib.Algebra.BigOperators.Group.List.Basic

/-!
# Counts and payloads

The counts of a bridge are added up by components.  Outside of query calls only a response
that nobody waits for adds to them (`Bridge.Turn.counts_eq`), and nothing is handed to a
sender.

`Session.run_complete` is the run of a query call that holds the slot and whose sender has
ended: the call fails, or counts that it could not be sent, or concludes.
-/

namespace Cockpit

open Op Bridge

/-! ## Counts -/

/-- The counts of a bridge. -/
@[ext]
structure Counts where
  queriesSent : Nat := 0
  responsesReceived : Nat := 0
  timeouts : Nat := 0
  sendFailures : Nat := 0
  strayResponses : Nat := 0
  deriving DecidableEq

namespace Counts

instance : Add Counts where
  add m n := ⟨m.queriesSent + n.queriesSent, m.responsesReceived + n.responsesReceived,
    m.timeouts + n.timeouts, m.sendFailures + n.sendFailures,
    m.strayResponses + n.strayResponses⟩

instance : Zero Counts where
  zero := {}

theorem add_def (m n : Counts) : m + n =
    ⟨m.queriesSent + n.queriesSent, m.responsesReceived + n.responsesReceived,
      m.timeouts + n.timeouts, m.sendFailures + n.sendFailures,
      m.strayResponses + n.strayResponses⟩ := rfl

theorem zero_def : (0 : Counts) = {} := rfl

instance : AddCommMonoid Counts where
  add_assoc k m n := by
    ext <;> simp only [add_def, Nat.add_assoc]
  zero_add n := by
    ext <;> simp only [add_def, zero_def, Nat.zero_add]
  add_zero n := by
    ext <;> simp only [add_def, zero_def, Nat.add_zero]
  add_comm m n := by
    ext <;> simp only [add_def, Nat.add_comm]
  nsmul := nsmulRec

end Counts

namespace Bridge

/-- The counts of a bridge. -/
def counts (b : Bridge) : Counts :=
  ⟨b.queriesSent, b.responsesReceived, b.timeouts, b.sendFailures, b.strayResponses⟩

@[simp] theorem counts_take (b : Bridge) : b.take.counts = b.counts := rfl

@[simp] theorem counts_release (t : Ticket) (b : Bridge) : (b.release t).counts = b.counts := by
  unfold release
  split <;> rfl

/-! ### Stray responses -/

/-- A response that came when nobody waited for one. -/
def Event.isStray : Event → Bool
  | .delivered _ (.ok true) => false
  | .delivered r _ => r.isSet
  | _ => false

/-- What some events add to the counts by responses that nobody waited for. -/
def strays (es : List Event) : Counts := { strayResponses := es.countP Event.isStray }

@[simp] theorem strays_nil : strays [] = 0 := rfl

theorem strays_append (es fs : List Event) : strays (es ++ fs) = strays es + strays fs := by
  ext <;> simp only [strays, Counts.add_def, List.countP_append, Nat.add_zero]

theorem strays_of_not {e : Event} (h : e.isStray = false) (es : List Event) :
    strays (e :: es) = strays es := by
  simp [strays, h]

variable {b c : Bridge} {e : Event}

/-- An event outside of calls adds nothing but a stray response. -/
theorem Turn.counts_eq (h : Turn b e c) : c.counts = b.counts + strays [e] := by
  cases h with
  | @unset r hr =>
      have he : Event.isStray (.delivered r (.ok false)) = false := hr
      rw [strays_of_not he, strays_nil, add_zero]
  | @stray r taken hr _ ht =>
      have he : Event.isStray (.delivered r taken) = true := by
        cases taken with
        | error f => exact hr
        | ok taken =>
            cases taken with
            | false => exact hr
            | true => exact absurd rfl ht
      rw [strays, List.countP_singleton, if_pos he]
      rfl
  | _ => exact (add_zero _).symm

end Bridge

/-! ## Payloads -/

namespace Session

variable {send : Sender} {stream : Stream} {wait : Value} {payload : String} {t : Ticket}
  {r : Except Fault Value} {f : Fault} {s s' u v : Session}

/-- The payloads that were handed to the sender, in order. -/
def payloads (s : Session) : List String := s.transmissions.map Transmission.payload

@[simp] theorem payloads_transmit (payload : String) (s : Session) :
    (transmit payload s).payloads = s.payloads ++ [payload] := by
  simp [payloads, transmit]

@[simp] theorem payloads_note (place : Nat) (r : Except Fault Answer) (s : Session) :
    (note place r s).payloads = s.payloads := by
  refine List.ext_getElem? fun i => ?_
  rw [payloads, payloads, List.getElem?_map, List.getElem?_map, note, List.getElem?_modify]
  by_cases hi : place = i
  · simp only [hi, if_true]
    cases s.transmissions[i]? <;> rfl
  · simp only [hi, if_false, id_map']

theorem payloads_congr (h : v.transmissions = u.transmissions) : v.payloads = u.payloads := by
  rw [payloads, h, payloads]

theorem transmissions_prepare (stream : Stream) (s : Session) :
    ((prepare stream).run s).2.transmissions = s.transmissions := by
  unfold prepare
  rw [run_liftM_bind]
  cases stream.framed with
  | error f => rfl
  | ok payload =>
      dsimp only
      rw [run_state_bind]
      by_cases h : s.bridge.logStreams.isSet = true
      · simp only [h, if_true]
        rfl
      · simp only [h]
        rfl

theorem transmissions_deliver (send : Sender) (payload : String) (source : Log.Source)
    (what : String) (s : Session) :
    ((deliver send payload source what).run s).2.transmissions =
      ((send payload).run s).2.transmissions := by
  rw [deliver, run_recover, run_bind]
  rcases (send payload).run s with ⟨f | v, u⟩
  · dsimp only
    split
    · rfl
    · rfl
  · rfl

theorem transmissions_receive (raw : Value) (s : Session) :
    ((receive raw).run s).2.transmissions = s.transmissions := by
  unfold receive
  rw [run_state_bind, run_bind]
  rcases h : (Workshop.logged (s.decoder.parse raw)).on workshopPart |>.run s
    with ⟨f | ⟨d, _ | p⟩, u⟩
  · exact congrArg (fun r => r.2.transmissions) h.symm
  · have hu : u.transmissions = s.transmissions := congrArg (fun r => r.2.transmissions) h.symm
    dsimp only
    rw [run_update_bind]
    by_cases hr : raw.isSet = true
    · simp only [hr, if_true]
      exact hu
    · simp only [hr]
      exact hu
  · have hu : u.transmissions = s.transmissions := congrArg (fun r => r.2.transmissions) h.symm
    dsimp only
    rw [run_update_bind, run_bind]
    have ha : ((answer (responseOf p)).run { u with decoder := d }).2.transmissions =
        u.transmissions := rfl
    rcases h : (answer (responseOf p)).run { u with decoder := d } with ⟨f | b, v⟩
    · rw [h] at ha
      exact ha.trans hu
    · rw [h] at ha
      exact ha.trans hu

/-- The session after an operation on its bridge by a call, which gives its ticket back. -/
def giveBack (t : Ticket) (l : Line) (s : Session) : Session :=
  { linePart.set l s with bridge := l.bridge.release t }

@[simp] theorem counts_giveBack (t : Ticket) (l : Line) (s : Session) :
    (giveBack t l s).bridge.counts = l.bridge.counts := counts_release t l.bridge

@[simp] theorem payloads_giveBack (t : Ticket) (l : Line) (s : Session) :
    (giveBack t l s).payloads = s.payloads := rfl

/-- A call whose stream cannot be written fails. -/
theorem run_complete_unwritten (hp : (prepare stream).run s = (.error f, s')) :
    (complete send stream wait t).run s = (.error f, giveBack t (linePart.get s') s') := by
  have hd : (deliverQuery send stream).run s = (.error f, s') := by
    rw [deliverQuery_eq]
    exact run_bind_error hp
  rw [complete, run_ensure, run_bind_error hd]
  rfl

/-- A call whose sender ended with `r` fails with it, or counts that it could not be sent,
or concludes, on the bridge that the sender left. -/
theorem run_complete (wait : Value) (t : Ticket) (hp : (prepare stream).run s = (.ok payload, s'))
    (hs : (send payload).run s' = (r, u)) :
    ∃ v, v.bridge = u.bridge ∧ v.payloads = u.payloads ∧
      (complete send stream wait t).run s =
        match sentBy r with
        | .error f => (.error f, giveBack t (linePart.get v) v)
        | .ok true =>
          let l := (Line.conclude t wait).run (linePart.get v)
          (l.1, giveBack t l.2 v)
        | .ok false =>
          let l := Line.sendFailed.run (linePart.get v)
          (l.1, giveBack t l.2 v) := by
  obtain ⟨hr, hb⟩ := run_deliver send payload .queryBridge "query" s'
  have ht := transmissions_deliver send payload .queryBridge "query" s'
  rw [hs] at hr hb ht
  have hd : (deliverQuery send stream).run s =
      (deliver send payload .queryBridge "query").run s' := by
    rw [deliverQuery_eq]
    exact run_bind_ok hp
  refine ⟨_, hb, payloads_congr ht, ?_⟩
  rw [complete, run_ensure]
  rcases hdel : (deliver send payload .queryBridge "query").run s' with ⟨f | sent, v⟩
  · rw [hdel] at hd hr
    dsimp only at hr
    rw [run_bind_error hd, ← hr]
    rfl
  · rw [hdel] at hd hr
    dsimp only at hr
    rw [run_bind_ok hd, ← hr]
    cases sent <;> rfl

end Session

end Cockpit
