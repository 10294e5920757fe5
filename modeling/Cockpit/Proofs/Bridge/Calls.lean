import Cockpit.Proofs.Bridge.Course
import Cockpit.Proofs.Op.Outcome
import Cockpit.Session.Feed
import Cockpit.Session.Query

/-!
# Bridge operations as events

What each operation of a session does to the bridge, as a turn of its course or as
the end of a call.  Operations that only log leave the bridge as it is.

`Session.run_ask` says what a query call is made of: reserving the slot, and then
`Session.complete` with the ticket.  `Session.run_complete_sent` says how the call
ends once its payload was handed over.
-/

namespace Cockpit

open Op Bridge

/-! ## Operations on the bridge -/

namespace Line

variable {l : Line} {t : Ticket} {r : Value}

theorem answer_turn (r : Value) (l : Line) :
    Turn l.bridge (.delivered r ((answer r).run l).1) ((answer r).run l).2.bridge := by
  unfold answer
  cases hr : r.isSet with
  | false => exact .unset hr
  | true =>
      simp only [Bool.not_true, Bool.false_eq_true, if_false]
      rw [run_state_bind]
      cases hs : l.bridge.slot with
      | some t => exact .answers hr hs
      | none =>
          dsimp only
          rw [change, run_update_bind, run_liftM_bind]
          cases excerpt r with
          | error f => exact .stray hr hs nofun
          | ok text => exact .stray hr hs nofun

theorem close_turn (l : Line) : Turn l.bridge .shut (close.run l).2.bridge := by
  unfold close
  rw [change, run_update_bind, run_state_bind]
  cases hs : l.bridge.slot with
  | some t =>
      have hs' : l.bridge.close.slot = some t := hs
      simp only [hs']
      exact .cancels hs
  | none =>
      have hs' : l.bridge.close.slot = none := hs
      simp only [hs']
      exact .shut hs

/-- An open bridge gives the slot to a call if it is free, and refuses the call if not. A
closed bridge gives no ticket. -/
theorem claim_cases (l : Line) :
    (l.bridge.closed = false ∧ l.bridge.slot = none ∧
      claim.run l = (.ok (some l.bridge.fates.length), { l with bridge := l.bridge.take })) ∨
    (l.bridge.closed = true ∧ ∃ j, claim.run l = (.ok none, { l with journal := j })) ∨
    (l.bridge.closed = false ∧ l.bridge.slot ≠ none ∧
      claim.run l = (.error .queryInFlight, l)) := by
  unfold claim
  rw [run_state_bind]
  dsimp only
  cases hc : l.bridge.closed with
  | true => exact Or.inr (Or.inl ⟨rfl, _, rfl⟩)
  | false =>
      rw [isAwaiting]
      cases hs : l.bridge.slot with
      | some t => exact Or.inr (Or.inr ⟨rfl, nofun, rfl⟩)
      | none => exact Or.inl ⟨rfl, rfl, rfl⟩

/-- A call whose payload was sent ends by the fate of its ticket. -/
theorem conclude_finish (t : Ticket) (wait : Value) (l : Line) {r : Except Fault Value}
    (hr : sentBy r = .ok true) :
    Finish t r l.bridge ((conclude t wait).run l).1 ((conclude t wait).run l).2.bridge := by
  unfold conclude
  rw [change, run_update_bind, run_state_bind]
  have hf : l.bridge.countSent.fate t = l.bridge.fate t := rfl
  simp only [hf]
  cases hfate : l.bridge.fate t with
  | answered v => exact .answered hr hfate
  | cancelled => exact .abandoned hr hfate
  | pending =>
      dsimp only
      rw [run_liftM_bind]
      cases waitInVain wait with
      | error f => exact .overlong hr hfate
      | ok _ =>
          dsimp only
          rw [change, run_update_bind, run_liftM_bind]
          cases wait.toDouble with
          | error f => exact .timedOut hr hfate nofun
          | ok d =>
              refine .timedOut hr hfate ?_
              intro v hv
              exact (Except.ok.inj hv).symm

theorem sendFailed_finish (t : Ticket) (l : Line) {r : Except Fault Value}
    (hr : sentBy r = .ok false) :
    Finish t r l.bridge (sendFailed.run l).1 (sendFailed.run l).2.bridge :=
  .failed hr

end Line

/-! ## Query calls -/

namespace Session

variable {send : Sender} {stream : Stream} {wait : Value} {payload : String} {t : Ticket}
  {r : Except Fault Value} {f : Fault} {s s' u : Session}

/-- Writes the stream of a query, before it is handed to the sender. -/
def prepare (stream : Stream) : Op Session String := do
  let payload ← stream.framed
  if (← .state).bridge.logStreams.isSet then
    (Line.say .debug s!"Query stream ({payload.length} chars): {payload}").on linePart
  return payload

theorem deliverQuery_eq (send : Sender) (stream : Stream) :
    deliverQuery send stream =
      prepare stream >>= fun payload => deliver send payload .queryBridge "query" := by
  unfold deliverQuery prepare
  rw [Op.bind_assoc]
  congr 1
  funext payload
  rw [Op.bind_assoc]
  congr 1
  funext s
  by_cases h : s.bridge.logStreams.isSet = true
  · simp only [h, if_true]
    rfl
  · simp only [h]
    rfl

theorem bridge_prepare (stream : Stream) (s : Session) :
    ((prepare stream).run s).2.bridge = s.bridge := by
  unfold prepare
  rw [run_liftM_bind]
  cases stream.framed with
  | error f => rfl
  | ok payload =>
      dsimp only
      rw [run_state_bind]
      by_cases h : s.bridge.logStreams.isSet = true
      · simp only [h, if_true]
        rfl
      · simp only [h]
        rfl

/-- Whether a payload was delivered is told by the end of its sender, and telling it does
nothing to the bridge. -/
theorem run_deliver (send : Sender) (payload : String) (source : Log.Source) (what : String)
    (s : Session) :
    ((deliver send payload source what).run s).1 = sentBy ((send payload).run s).1 ∧
      ((deliver send payload source what).run s).2.bridge = ((send payload).run s).2.bridge := by
  rw [deliver, run_recover, run_bind]
  rcases (send payload).run s with ⟨f | v, u⟩
  · dsimp only
    rw [sentBy]
    by_cases h : f.isTransport = true
    · simp only [h, if_true]
      exact ⟨rfl, rfl⟩
    · simp only [h]
      exact ⟨rfl, rfl⟩
  · exact ⟨rfl, rfl⟩

/-- A call whose stream cannot be written fails and gives the slot back. -/
theorem run_complete_unsent (hp : (prepare stream).run s = (.error f, s')) :
    ((complete send stream wait t).run s).1 = .error f ∧
      ((complete send stream wait t).run s).2.bridge = s.bridge.release t := by
  have hb : s'.bridge = s.bridge := by rw [← bridge_prepare stream s, hp]
  have hd : (deliverQuery send stream).run s = (.error f, s') := by
    rw [deliverQuery_eq]
    exact run_bind_error hp
  rw [complete, run_ensure, run_bind_error hd]
  exact ⟨rfl, by rw [hb]⟩

/-- A call whose payload was handed to the sender ends by how the sender ended and by the
fate of its ticket then, and gives the slot back. -/
theorem run_complete_sent (wait : Value) (t : Ticket)
    (hp : (prepare stream).run s = (.ok payload, s')) (hs : (send payload).run s' = (r, u)) :
    ∃ d, Finish t r u.bridge ((complete send stream wait t).run s).1 d ∧
      ((complete send stream wait t).run s).2.bridge = d.release t := by
  obtain ⟨hr, hb⟩ := run_deliver send payload .queryBridge "query" s'
  rw [hs] at hr hb
  have hd : (deliverQuery send stream).run s =
      (deliver send payload .queryBridge "query").run s' := by
    rw [deliverQuery_eq]
    exact run_bind_ok hp
  rw [complete, run_ensure]
  rcases hdel : (deliver send payload .queryBridge "query").run s' with ⟨f | sent, u'⟩
  · rw [hdel] at hd hr hb
    rw [run_bind_error hd]
    exact ⟨_, .broken hr.symm, by rw [hb]⟩
  · rw [hdel] at hd hr hb
    rw [run_bind_ok hd, ← hb]
    cases sent with
    | true => exact ⟨_, Line.conclude_finish t wait (linePart.get u') hr.symm, rfl⟩
    | false => exact ⟨_, Line.sendFailed_finish t (linePart.get u') hr.symm, rfl⟩

/-- Takes the slot for a stream, which must hold exactly one query. -/
def reserve (stream : Stream) : Op Session (Option Ticket) :=
  if stream.queries ≠ 1 then .stop (.notOneQuery stream.queries) else Line.claim.on linePart

/-- A query call reserves the slot, and is completed if it got a ticket. -/
theorem run_ask (send : Sender) (stream : Stream) (wait : Value) (s : Session) :
    (ask send stream wait).run s =
      match (reserve stream).run s with
      | (.ok (some t), u) => (complete send stream (waitOf wait s.bridge) t).run u
      | (.ok none, u) => (.ok .null, u)
      | (.error f, u) => (.error f, u) := by
  unfold ask reserve
  by_cases hq : stream.queries ≠ 1
  · rw [if_pos hq, if_pos hq]
    rfl
  · rw [if_neg hq, if_neg hq, run_state_bind, run_bind]
    rcases (Line.claim.on linePart).run s with ⟨f | _ | t, u⟩
    · rfl
    · rfl
    · rfl

/-- The slot is reserved on an open bridge where it is free, and nothing is done otherwise. -/
theorem reserve_cases (stream : Stream) (s : Session) :
    (s.bridge.closed = false ∧ s.bridge.slot = none ∧ (reserve stream).run s =
      (.ok (some s.bridge.fates.length), { s with bridge := s.bridge.take })) ∨
    (∃ o u, (reserve stream).run s = (o, u) ∧ u.bridge = s.bridge ∧
      (o = .ok none ∨ ∃ f, o = .error f)) := by
  unfold reserve
  by_cases hq : stream.queries ≠ 1
  · rw [if_pos hq]
    exact Or.inr ⟨_, _, rfl, rfl, Or.inr ⟨_, rfl⟩⟩
  · rw [if_neg hq, run_on]
    rcases Line.claim_cases (linePart.get s) with ⟨hc, hs, h⟩ | ⟨-, j, h⟩ | ⟨-, -, h⟩
    · rw [h]
      exact Or.inl ⟨hc, hs, rfl⟩
    · rw [h]
      exact Or.inr ⟨_, _, rfl, rfl, Or.inl rfl⟩
    · rw [h]
      exact Or.inr ⟨_, _, rfl, rfl, Or.inr ⟨_, rfl⟩⟩

/-! ## Telemetry -/

/-- Decodes a raw packet and keeps the decoder. -/
def decode (raw : Value) : Op Session (Option Telemetry.Packet) := do
  let (decoder, packet) ← (Workshop.logged ((← .state).decoder.parse raw)).on workshopPart
  .update fun s => { s with decoder }
  return packet

theorem bridge_decode (raw : Value) (s : Session) :
    ((decode raw).run s).2.bridge = s.bridge := by
  unfold decode
  rw [run_state_bind, run_bind, run_on]
  rcases (Workshop.logged (s.decoder.parse raw)).run (workshopPart.get s) with ⟨f | ⟨d, p⟩, w⟩
  · rfl
  · rfl

/-- The packet that was decoded brings its response, and a refused one brings none. -/
theorem run_receive (raw : Value) (s : Session) :
    ((receive raw).run s).2.bridge =
      match (decode raw).run s with
      | (.ok (some p), u) => ((answer (responseOf p)).run u).2.bridge
      | (_, u) => u.bridge := by
  unfold receive decode
  rw [run_state_bind, run_state_bind, run_bind, run_bind]
  rcases (Workshop.logged (s.decoder.parse raw)).on workshopPart |>.run s with ⟨f | ⟨d, _ | p⟩, u⟩
  · rfl
  · dsimp only
    rw [run_update_bind]
    by_cases h : raw.isSet = true
    · simp only [h, if_true]
      rfl
    · simp only [h]
      rfl
  · dsimp only
    rw [run_update_bind, run_update_bind, run_bind]
    rcases h : (answer (responseOf p)).run { u with decoder := d } with ⟨f | b, v⟩
    · simp only [run_pure, h]
    · simp only [run_pure, h]

end Session

end Cockpit
