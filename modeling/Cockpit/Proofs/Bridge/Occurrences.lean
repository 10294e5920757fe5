import Cockpit.Proofs.Bridge.History
import Cockpit.Proofs.Bridge.Path

/-!
# The query calls of a run

`Deed.callsOfAll` lists the query calls that deeds make, at any depth: those that they
make themselves, and those that are made while the payload of another one is on the
way.  A `QueryCall` says between which sessions it went, what its sender was handed and
how that ended, with what outcome, and which calls were around it.

`Deed.mem_callsOfAll` is how facts about calls are proved.  Every call of a run is
the run of `Session.ask` with some deeds in its sender, in a session whose slot is empty
or held by a call around it that waits (`Bridge.Held`).
-/

namespace Cockpit

open Op Bridge

/-! ## Slots held from around -/

namespace Bridge

variable {b c : Bridge} {g : List Moment} {around : List Ticket} {t : Ticket}

/-- The slot is empty, or one of some calls holds it and waits. -/
def Held (around : List Ticket) (b : Bridge) : Prop :=
  ∀ t, b.slot = some t → t ∈ around ∧ t < b.fates.length ∧ b.fate t = .pending

theorem held_of_free (h : b.slot = none) (around : List Ticket) : Held around b := by
  intro t ht
  rw [h] at ht
  cases ht

theorem Held.take (around : List Ticket) (b : Bridge) :
    Held (b.fates.length :: around) b.take := by
  intro t ht
  obtain rfl : b.fates.length = t := Option.some.inj ht
  refine ⟨List.mem_cons_self, ?_, fate_take_self b⟩
  rw [length_take]
  exact Nat.lt_succ_self _

/-- A course leaves the slot to who had it, or to nobody. -/
theorem Course.slot_eq_or (h : Course b g c) : c.slot = none ∨ c.slot = b.slot := by
  induction h with
  | nil => exact Or.inr rfl
  | turn h =>
      cases h with
      | answers _ _ => exact Or.inl rfl
      | cancels _ => exact Or.inl rfl
      | unset _ => exact Or.inr rfl
      | stray _ _ _ => exact Or.inr rfl
      | shut _ => exact Or.inr rfl
      | reopened => exact Or.inr rfl
      | refused _ => exact Or.inr rfl
  | append _ _ ihg ihh =>
      rcases ihh with hh | hh
      · exact Or.inl hh
      · rw [hh]
        exact ihg
  | @call b c d _ _ _ _ _ _ hd ih =>
      refine Or.inl ?_
      unfold release
      split
      · rfl
      · rename_i hne
        rcases ih with hn | hs
        · exact hd.slot_eq.trans hn
        · exact absurd (hd.slot_eq.trans hs) hne
  | @unsent b _ _ _ =>
      refine Or.inl ?_
      rw [release, if_pos (slot_take b)]

/-- A call around that holds the slot after a course held it before, and still waits. -/
theorem Held.course (hb : Held around b) (h : Course b g c) : Held around c := by
  intro t ht
  have hs : b.slot = some t := by
    rcases h.slot_eq_or with hn | hs
    · rw [hn] at ht
      cases ht
    · rw [← hs, ht]
  obtain ⟨hmem, hlt, hp⟩ := hb t hs
  cases h.held hlt hs with
  | still _ hf _ => exact ⟨hmem, Nat.lt_of_lt_of_le hlt h.grows, hf.trans hp⟩
  | answered hs' _ _ _ _ => exact absurd ht hs'
  | cancelled hs' _ _ _ => exact absurd ht hs'

end Bridge

/-! ## Calls -/

/-- A payload that was handed to the sender of a query call, and what came of it. -/
structure Sending where
  payload : String
  /-- The session in which the sender began. -/
  start : Session
  /-- What happened on the bridge meanwhile. -/
  events : List Event
  /-- How the sender ended. -/
  result : Except Fault Value
  /-- The session in which it ended. -/
  finish : Session

/-- A query call of a run. -/
structure QueryCall where
  /-- The calls around it that got a ticket, innermost first. -/
  around : List Ticket
  stream : Stream
  wait : Value
  before : Session
  /-- What its sender was handed, if the sender was called. -/
  sending : Option Sending
  outcome : Except Fault Value
  after : Session

namespace QueryCall

/-- The ticket that a call gets, if it gets one. -/
def ticket (c : QueryCall) : Ticket := c.before.bridge.fates.length

/-- The calls that are made while the payload of a call is on the way. -/
def within (during : List Ticket → Nat → Session → List QueryCall) (c : QueryCall) :
    List QueryCall :=
  match c.sending with
  | some x =>
    during (c.ticket :: c.around) x.start.transmissions.length
      (Session.transmit x.payload x.start)
  | none => []

end QueryCall

namespace Session

/-- What a query call hands to a sender that does some deeds, if it calls the sender. -/
def handOver (ds : List Deed) (ending : Ending) (stream : Stream) (s : Session) :
    Option Sending :=
  match (reserve stream).run s with
  | (.ok (some _), u) =>
    match (prepare stream).run u with
    | (.ok payload, v) =>
      let r := (sender (Deed.runAll ds) ending payload).run v
      some ⟨payload, v, Deed.eventsOfAll ds v.transmissions.length (transmit payload v),
        r.1, r.2⟩
    | (.error _, _) => none
  | _ => none

/-- A query call whose sender does some deeds. -/
def callOf (ds : List Deed) (ending : Ending) (stream : Stream) (wait : Value)
    (around : List Ticket) (s : Session) : QueryCall :=
  let r := (ask (sender (Deed.runAll ds) ending) stream wait).run s
  ⟨around, stream, wait, s, handOver ds ending stream s, r.1, r.2⟩

end Session

open Session in
mutual

/-- The query calls that a deed makes, given the calls around it. -/
def Deed.calls : Deed → List Ticket → Session → List QueryCall
  | .query fn args wait ds e => fun around s =>
    match queryOf fn args with
    | .error _ => []
    | .ok stream =>
      let c := callOf ds e stream wait around s
      c :: c.within (Deed.callsOfAll ds)
  | .ask stream wait ds e => fun around s =>
    let c := callOf ds e stream wait around s
    c :: c.within (Deed.callsOfAll ds)
  | _ => fun _ _ => []
termination_by structural d => d

/-- The query calls that deeds one after another make. -/
def Deed.callsOfAll : List Deed → List Ticket → Nat → Session → List QueryCall
  | [], _, _, _ => []
  | d :: ds, around, place, s =>
    let r := d.run.run s
    d.calls around s ++ Deed.callsOfAll ds around place (note place r.1 r.2)
termination_by structural ds => ds

end

/-! ## What every call is -/

/-- A call is the run of a query whose sender does deeds on the bridge. -/
def QueryCall.Made (c : QueryCall) : Prop :=
  ∃ ds ending, Deed.areOnBridge ds = true ∧
    c = Session.callOf ds ending c.stream c.wait c.around c.before

namespace Session

variable {ds : List Deed} {ending : Ending} {stream : Stream} {s : Session} {x : Sending}

/-- A sender is called only by a call that got the slot and could write its stream.  Up
to then nothing but the slot has changed on the bridge. -/
theorem handOver_eq_some (h : handOver ds ending stream s = some x) :
    s.bridge.closed = false ∧ s.bridge.slot = none ∧
      ∃ v, (prepare stream).run { s with bridge := s.bridge.take } = (.ok x.payload, v) ∧
        x = ⟨x.payload, v, Deed.eventsOfAll ds v.transmissions.length (transmit x.payload v),
          ((sender (Deed.runAll ds) ending x.payload).run v).1,
          ((sender (Deed.runAll ds) ending x.payload).run v).2⟩ := by
  rw [handOver] at h
  rcases reserve_cases stream s with ⟨hopen, hfree, hr⟩ | ⟨o, u, hr, -, rfl | ⟨f, rfl⟩⟩
  · rw [hr] at h
    dsimp only at h
    rcases hp : (prepare stream).run { s with bridge := s.bridge.take } with ⟨f | payload, v⟩
    · rw [hp] at h
      cases h
    · rw [hp] at h
      cases h
      exact ⟨hopen, hfree, v, rfl, rfl⟩
  · rw [hr] at h
    cases h
  · rw [hr] at h
    cases h

/-- The bridge on which a sender begins is the one on which its call took the slot. -/
theorem bridge_start (h : handOver ds ending stream s = some x) :
    x.start.bridge = s.bridge.take := by
  obtain ⟨-, -, v, hv, hx⟩ := handOver_eq_some h
  rw [hx]
  have hb := bridge_prepare stream { s with bridge := s.bridge.take }
  rwa [hv] at hb

end Session

open Session

/-- What a call does within its sender is found among the calls of its deeds. -/
theorem QueryCall.mem_within {ds : List Deed} {ending : Ending} {stream : Stream}
    {wait : Value} {around : List Ticket} {s : Session} {c : QueryCall}
    {during : List Ticket → Nat → Session → List QueryCall}
    (hc : c ∈ (callOf ds ending stream wait around s).within during) :
    ∃ x : Sending, x.start.bridge = s.bridge.take ∧
      c ∈ during (s.bridge.fates.length :: around) x.start.transmissions.length
        (transmit x.payload x.start) := by
  rw [within] at hc
  cases hx : (callOf ds ending stream wait around s).sending with
  | none =>
      rw [hx] at hc
      cases hc
  | some x =>
      rw [hx] at hc
      exact ⟨x, bridge_start hx, hc⟩

mutual

theorem Deed.mem_calls : ∀ (d : Deed), d.isOnBridge = true → ∀ (around : List Ticket)
    (s : Session) (c : QueryCall), c ∈ d.calls around s →
      c.Made ∧ (Held around s.bridge → Held c.around c.before.bridge)
  | .query fn args wait ds e => by
      intro hb around s c hc
      rw [Deed.isOnBridge] at hb
      rw [Deed.calls] at hc
      cases hq : queryOf fn args with
      | error f =>
          rw [hq] at hc
          cases hc
      | ok stream =>
          rw [hq] at hc
          rcases List.mem_cons.mp hc with rfl | hc
          · exact ⟨⟨ds, e, hb, rfl⟩, id⟩
          · obtain ⟨x, hx, hc⟩ := QueryCall.mem_within hc
            obtain ⟨hm, hh⟩ := Deed.mem_callsOfAll ds hb _ _ _ c hc
            refine ⟨hm, fun _ => hh ?_⟩
            exact (congrArg (Held _) hx).mpr (Held.take around s.bridge)
  | .ask stream wait ds e => by
      intro hb around s c hc
      rw [Deed.isOnBridge] at hb
      rw [Deed.calls] at hc
      rcases List.mem_cons.mp hc with rfl | hc
      · exact ⟨⟨ds, e, hb, rfl⟩, id⟩
      · obtain ⟨x, hx, hc⟩ := QueryCall.mem_within hc
        obtain ⟨hm, hh⟩ := Deed.mem_callsOfAll ds hb _ _ _ c hc
        refine ⟨hm, fun _ => hh ?_⟩
        exact (congrArg (Held _) hx).mpr (Held.take around s.bridge)
  | .respond _ | .telemetry _ | .close | .reopen | .lineState => fun _ _ _ _ hc => nomatch hc
  | .abandonedQuery .. | .askWith .. | .askUnderSettings .. | .builderStep .. | .inspect ..
  | .composeStream .. | .sendUpload .. | .agentStatus .. | .upload .. | .stop
  | .strictActions | .configure .. | .fail .. => nofun
termination_by structural d => d

/-- Every call of a run has a sender that does deeds on the bridge.  If a call around
holds the slot or nobody does when the run begins, then so it is when the call begins. -/
theorem Deed.mem_callsOfAll : ∀ (ds : List Deed), Deed.areOnBridge ds = true →
    ∀ (around : List Ticket) (place : Nat) (s : Session) (c : QueryCall),
      c ∈ Deed.callsOfAll ds around place s →
        c.Made ∧ (Held around s.bridge → Held c.around c.before.bridge)
  | [] => fun _ _ _ _ _ hc => nomatch hc
  | d :: ds => by
      intro hb around place s c hc
      rw [Deed.areOnBridge, Bool.and_eq_true] at hb
      obtain ⟨hd, hds⟩ := hb
      rw [Deed.callsOfAll] at hc
      rcases List.mem_append.mp hc with hc | hc
      · exact Deed.mem_calls d hd around s c hc
      · obtain ⟨hm, hh⟩ := Deed.mem_callsOfAll ds hds around place _ c hc
        exact ⟨hm, fun hs => hh (hs.course (Deed.history_course d hd s))⟩
termination_by structural ds => ds

end

end Cockpit
