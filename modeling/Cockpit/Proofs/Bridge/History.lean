import Cockpit.Proofs.Bridge.Calls
import Cockpit.Session.Program

/-!
# Histories of deeds

`Deed.history` lists what a deed does on the bridge of a session, in order.  It goes
along the run of the deed: every event comes with the bridge that the session has
right after it, and a query call ends with the outcome that its run has
(`Deed.history_query_ends`, `Deed.history_ask_ends`).

`Deed.history_course` says that the history of a deed on the bridge is a course
from the bridge before its run to the bridge after it, so nothing that happens to
the bridge is left out.
-/

namespace Cockpit

open Op Bridge

/-! ## Deeds on the bridge -/

mutual

/-- Whether a deed is an operation of the bridge, and all that is done meanwhile too. -/
def Deed.isOnBridge : Deed → Bool
  | .query _ _ _ ds _ => Deed.areOnBridge ds
  | .ask _ _ ds _ => Deed.areOnBridge ds
  | .respond _ => true
  | .telemetry _ => true
  | .close => true
  | .reopen => true
  | .lineState => true
  | _ => false
termination_by structural d => d

/-- Whether deeds are all operations of the bridge. -/
def Deed.areOnBridge : List Deed → Bool
  | [] => true
  | d :: ds => d.isOnBridge && Deed.areOnBridge ds
termination_by structural ds => ds

end

/-! ## Histories -/

namespace Session

/-- What happens while the stream of a query with a ticket is sent, given what happens
meanwhile.  There is no sender if the stream cannot be written. -/
def sending (meanwhile : Nat → Op Session Unit) (during : Nat → Session → List Moment)
    (ending : Ending) (stream : Stream) (t : Ticket) (s : Session) : List Moment :=
  match (prepare stream).run s with
  | (.error _, _) => []
  | (.ok payload, u) =>
    let r := (sender meanwhile ending payload).run u
    during u.transmissions.length (transmit payload u) ++ [⟨.sent t r.1, r.2.bridge⟩]

/-- What happens in a query call, given what happens meanwhile. -/
def calling (meanwhile : Nat → Op Session Unit) (during : Nat → Session → List Moment)
    (ending : Ending) (stream : Stream) (wait : Value) (s : Session) : List Moment :=
  let r := (ask (sender meanwhile ending) stream wait).run s
  match (reserve stream).run s with
  | (.ok (some t), u) =>
    ⟨.reserved t, u.bridge⟩ ::
      (sending meanwhile during ending stream t u ++ [⟨.ended (some t) r.1, r.2.bridge⟩])
  | _ => [⟨.ended none r.1, r.2.bridge⟩]

/-- The arrival of a response. -/
def responding (response : Value) (s : Session) : List Moment :=
  let r := (answer response).run s
  [⟨.delivered response r.1, r.2.bridge⟩]

end Session

open Session in
mutual

/-- What a deed does on the bridge. -/
def Deed.history : Deed → Session → List Moment
  | .query fn args wait ds e => fun s =>
    match queryOf fn args with
    | .error f => [⟨.ended none (.error f), s.bridge⟩]
    | .ok stream => calling (Deed.runAll ds) (Deed.historyOfAll ds) e stream wait s
  | .ask stream wait ds e => calling (Deed.runAll ds) (Deed.historyOfAll ds) e stream wait
  | .respond r => responding r
  | .telemetry raw => fun s =>
    match (decode raw).run s with
    | (.ok (some p), u) => responding (responseOf p) u
    | _ => []
  | .close => fun s => [⟨.shut, ((Line.close.on linePart).run s).2.bridge⟩]
  | .reopen => fun s => [⟨.reopened, (((Line.change Bridge.reopen).on linePart).run s).2.bridge⟩]
  | _ => fun _ => []
termination_by structural d => d

/-- What deeds one after another do on the bridge. -/
def Deed.historyOfAll : List Deed → Nat → Session → List Moment
  | [], _, _ => []
  | d :: ds, place, s =>
    let r := d.run.run s
    d.history s ++ Deed.historyOfAll ds place (note place r.1 r.2)
termination_by structural ds => ds

end

/-- The events of deeds one after another. -/
def Deed.eventsOfAll (ds : List Deed) (place : Nat) (s : Session) : List Event :=
  events (Deed.historyOfAll ds place s)

/-! ## Outcomes

The last event of a query deed is the end of its call, with the outcome of its run. -/

theorem Session.calling_ends (meanwhile : Nat → Op Session Unit)
    (during : Nat → Session → List Moment) (ending : Ending) (stream : Stream) (wait : Value)
    (s : Session) :
    ∃ h t b, Session.calling meanwhile during ending stream wait s = h ++
      [⟨.ended t ((Session.ask (Session.sender meanwhile ending) stream wait).run s).1, b⟩] := by
  rw [Session.calling]
  rcases (Session.reserve stream).run s with ⟨f | _ | t, u⟩
  · exact ⟨[], _, _, rfl⟩
  · exact ⟨[], _, _, rfl⟩
  · dsimp only
    rw [← List.cons_append]
    exact ⟨_, _, _, rfl⟩

theorem Deed.history_ask_ends (stream : Stream) (wait : Value) (ds : List Deed) (e : Ending)
    (s : Session) :
    ∃ h t o b, (Deed.ask stream wait ds e).history s = h ++ [⟨.ended t o, b⟩] ∧
      ((Deed.ask stream wait ds e).run.run s).1 = o.map .value := by
  obtain ⟨h, t, b, hh⟩ :=
    Session.calling_ends (Deed.runAll ds) (Deed.historyOfAll ds) e stream wait s
  rw [Deed.history, Deed.run, result_bind_pure]
  exact ⟨h, t, _, b, hh, rfl⟩

theorem Deed.history_query_ends (fn args wait : Value) (ds : List Deed) (e : Ending)
    (s : Session) :
    ∃ h t o b, (Deed.query fn args wait ds e).history s = h ++ [⟨.ended t o, b⟩] ∧
      ((Deed.query fn args wait ds e).run.run s).1 = o.map .value := by
  rw [Deed.history, Deed.run, result_bind_pure, Session.query, run_liftM_bind]
  cases Session.queryOf fn args with
  | error f => exact ⟨[], none, .error f, s.bridge, rfl, rfl⟩
  | ok stream =>
      obtain ⟨h, t, b, hh⟩ :=
        Session.calling_ends (Deed.runAll ds) (Deed.historyOfAll ds) e stream wait s
      exact ⟨h, t, _, b, hh, rfl⟩

/-! ## Histories are courses -/

namespace Session

variable {meanwhile : Nat → Op Session Unit} {during : Nat → Session → List Moment}
  {ending : Ending} {stream : Stream} {wait : Value} {s u : Session}

/-- A sender leaves the session as what was done meanwhile leaves it. -/
theorem run_sender (meanwhile : Nat → Op Session Unit) (ending : Ending) (payload : String)
    (u : Session) :
    ((sender meanwhile ending payload).run u).2 =
      ((meanwhile u.transmissions.length).run (transmit payload u)).2 := by
  rw [sender, run_state_bind, run_update_bind, run_bind]
  rcases (meanwhile u.transmissions.length).run (transmit payload u) with ⟨f | _, v⟩
  · rfl
  · rfl

/-- Deeds one after another end, whatever each of them does. -/
theorem runAll_ends : ∀ (ds : List Deed) (place : Nat) (s : Session),
    ((Deed.runAll ds place).run s).1 = .ok ()
  | [], _, _ => rfl
  | d :: ds, place, s => runAll_ends ds place (note place (d.run.run s).1 (d.run.run s).2)

theorem responding_course (response : Value) (s : Session) :
    Course s.bridge (responding response s) ((answer response).run s).2.bridge :=
  .turn (Line.answer_turn response (linePart.get s))

/-- A query call that leaves the bridge as it is got no ticket and has no value. -/
theorem refused_course {o : Except Fault Value} (hb : u.bridge = s.bridge)
    (ho : ∀ v, o = .ok v → v = .null) :
    Course s.bridge [⟨.ended none o, u.bridge⟩] u.bridge := by
  rw [hb]
  exact .turn (.refused ho)

/-- The history of a query call is a course if what happens meanwhile is one. -/
theorem calling_course
    (hd : ∀ place u, Course u.bridge (during place u) ((meanwhile place).run u).2.bridge)
    (ending : Ending) (stream : Stream) (wait : Value) (s : Session) :
    Course s.bridge (calling meanwhile during ending stream wait s)
      ((ask (sender meanwhile ending) stream wait).run s).2.bridge := by
  rw [calling, run_ask]
  rcases reserve_cases stream s with ⟨hopen, hfree, h⟩ | ⟨o, u, h, hb, rfl | ⟨f, rfl⟩⟩
  · rw [h]
    dsimp only
    rw [sending]
    rcases hp : (prepare stream).run { s with bridge := s.bridge.take } with ⟨f | payload, u⟩
    · obtain ⟨ho, hb⟩ := run_complete_unsent hp
      rw [ho, hb]
      exact .unsent hopen hfree
    · have hu : u.bridge = s.bridge.take := by
        have hu' := bridge_prepare stream { s with bridge := s.bridge.take }
        rwa [hp] at hu'
      have hc := hd u.transmissions.length (transmit payload u)
      rw [← run_sender meanwhile ending payload u] at hc
      have hc' : Course s.bridge.take (during u.transmissions.length (transmit payload u))
          ((sender meanwhile ending payload).run u).2.bridge := hu ▸ hc
      obtain ⟨d, hf, hend⟩ := run_complete_sent (waitOf wait s.bridge) s.bridge.fates.length hp
        (Prod.eta ((sender meanwhile ending payload).run u)).symm
      rw [hend]
      dsimp only
      rw [List.append_assoc]
      exact .call hopen hfree hc' hf
  · rw [h]
    refine refused_course hb ?_
    intro v hv
    exact (Except.ok.inj hv).symm
  · rw [h]
    exact refused_course hb nofun

end Session

open Session

mutual

/-- The history of a deed on the bridge is a course along its run. -/
theorem Deed.history_course : ∀ (d : Deed), d.isOnBridge = true → ∀ s : Session,
    Course s.bridge (d.history s) (d.run.run s).2.bridge
  | .query fn args wait ds e => by
      intro hb s
      rw [Deed.isOnBridge] at hb
      rw [Deed.history, Deed.run, state_bind_pure, Session.query, run_liftM_bind]
      cases queryOf fn args with
      | error f => exact refused_course rfl nofun
      | ok stream => exact calling_course (Deed.historyOfAll_course ds hb) e stream wait s
  | .ask stream wait ds e => by
      intro hb s
      rw [Deed.isOnBridge] at hb
      rw [Deed.history, Deed.run, state_bind_pure]
      exact calling_course (Deed.historyOfAll_course ds hb) e stream wait s
  | .respond r => by
      intro _ s
      rw [Deed.history, Deed.run, state_bind_pure]
      exact responding_course r s
  | .telemetry raw => by
      intro _ s
      rw [Deed.history, Deed.run, state_bind_pure, run_receive]
      have hb := bridge_decode raw s
      rcases h : (decode raw).run s with ⟨f | _ | p, u⟩
      · have hu : u.bridge = s.bridge := by rw [← hb, h]
        simp only [h, hu]
        exact .nil
      · have hu : u.bridge = s.bridge := by rw [← hb, h]
        simp only [h, hu]
        exact .nil
      · have hu : u.bridge = s.bridge := by rw [← hb, h]
        simp only [h, ← hu]
        exact responding_course (responseOf p) u
  | .close => by
      intro _ s
      rw [Deed.history, Deed.run, state_bind_pure]
      exact .turn (Line.close_turn (linePart.get s))
  | .reopen => by
      intro _ s
      rw [Deed.history, Deed.run, state_bind_pure]
      exact .turn .reopened
  | .lineState => fun _ _ => .nil
  | .abandonedQuery .. | .askWith .. | .askUnderSettings .. | .builderStep .. | .inspect ..
  | .composeStream .. | .sendUpload .. | .agentStatus .. | .upload .. | .stop
  | .strictActions | .configure .. | .fail .. => nofun
termination_by structural d => d

/-- Deeds one after another have a course one after another. -/
theorem Deed.historyOfAll_course : ∀ (ds : List Deed), Deed.areOnBridge ds = true →
    ∀ (place : Nat) (s : Session),
      Course s.bridge (Deed.historyOfAll ds place s) ((Deed.runAll ds place).run s).2.bridge
  | [], _, _, _ => .nil
  | d :: ds, hb, place, s => by
      rw [Deed.areOnBridge, Bool.and_eq_true] at hb
      obtain ⟨hd, hds⟩ := hb
      have hfirst := Deed.history_course d hd s
      have hrest := Deed.historyOfAll_course ds hds place
        (note place (d.run.run s).1 (d.run.run s).2)
      exact .append hfirst hrest
termination_by structural ds => ds

end

end Cockpit
