import Cockpit.Proofs.Bridge.Answers
import Cockpit.Proofs.Bridge.Occurrences
import Cockpit.Proofs.Wire.Refused

/-!
# Who holds the slot

The slot of a bridge is never leaked and never stolen.  At every moment of a run it is
empty or held by a query call that is in progress and waits.  A call that ends empties
it only if it held it.  And a call that could have the slot is told that another query
is in flight exactly when a call around it holds the slot and waits.

`Deed.slot_tended` says this of all runs of deeds on a bridge whose slot is empty.
-/

namespace Cockpit

open Op Bridge

namespace Session

variable {stream : Stream} {s : Session}

/-! ## Calls that are told of another query -/

/-- On an open bridge whose slot is held, a stream with one query gets no ticket. -/
theorem reserve_taken (hq : stream.queries = 1) (hopen : s.bridge.closed = false)
    (hs : s.bridge.slot ≠ none) : (reserve stream).run s = (.error .queryInFlight, s) := by
  rw [reserve, if_neg (Decidable.not_not.mpr hq), run_on]
  rcases Line.claim_cases (linePart.get s) with ⟨-, hfree, -⟩ | ⟨hclosed, -⟩ | ⟨-, -, h⟩
  · exact absurd hfree hs
  · cases hopen.symm.trans hclosed
  · rw [h]
    rfl

/-- On an open bridge whose slot is free, a stream with one query gets the next ticket. -/
theorem reserve_free (hq : stream.queries = 1) (hopen : s.bridge.closed = false)
    (hfree : s.bridge.slot = none) : (reserve stream).run s =
      (.ok (some s.bridge.fates.length), { s with bridge := s.bridge.take }) := by
  rw [reserve, if_neg (Decidable.not_not.mpr hq), run_on]
  rcases Line.claim_cases (linePart.get s) with ⟨-, -, h⟩ | ⟨hclosed, -⟩ | ⟨-, hs, -⟩
  · rw [h]
    rfl
  · cases hopen.symm.trans hclosed
  · exact absurd hfree hs

/-- What is made ready for the sender is what the stream is written as. -/
theorem result_prepare (stream : Stream) (s : Session) :
    ((prepare stream).run s).1 = stream.framed := by
  rw [prepare, run_liftM_bind]
  cases stream.framed with
  | error f => rfl
  | ok payload =>
      dsimp only
      rw [run_state_bind]
      by_cases hl : s.bridge.logStreams.isSet = true
      · simp only [hl, if_true]
        rfl
      · simp only [hl]
        rfl

/-- A call whose stream has one query is told of another one, before anything is sent,
exactly if the slot of the open bridge is held. -/
theorem callOf_inFlight_iff (ds : List Deed) (ending : Ending) (wait : Value)
    (around : List Ticket) (hq : stream.queries = 1) (hopen : s.bridge.closed = false) :
    ((callOf ds ending stream wait around s).outcome = .error .queryInFlight ∧
        (callOf ds ending stream wait around s).sending = none) ↔ s.bridge.slot ≠ none := by
  constructor
  · rintro ⟨ho, hn⟩ hfree
    have hr := reserve_free hq hopen hfree
    rw [callOf, handOver, hr] at hn
    rw [callOf, run_ask, hr] at ho
    dsimp only at hn ho
    rcases hp : (prepare stream).run { s with bridge := s.bridge.take } with ⟨f | payload, v⟩
    · obtain ⟨hf, -⟩ := run_complete_unsent hp
      rw [hf] at ho
      cases ho
      have hw := result_prepare stream { s with bridge := s.bridge.take }
      rw [hp] at hw
      rcases stream.framed_fails _ hw.symm with hc | hc | hc
      · cases hc
      · cases hc
      · cases hc
    · rw [hp] at hn
      cases hn
  · intro hs
    have hr := reserve_taken hq hopen hs
    rw [callOf, handOver, run_ask, hr]
    exact ⟨rfl, rfl⟩

end Session

/-! ## Runs of deeds -/

/-- In every run of deeds on a bridge whose slot is empty at first:

* at every moment the slot is empty, or belongs to a call that is in progress and neither
  answered nor given up, so the bridge is idle when no call is in progress,
* a call that ends empties the slot if it holds it, and leaves it alone if not,
* a call with one query on an open bridge is told that another query is in flight, before
  its own sender is called, exactly if a call around it holds the slot and waits. -/
theorem Deed.slot_tended (ds : List Deed) (hb : Deed.areOnBridge ds = true) (place : Nat)
    (s : Session) (hfree : s.bridge.slot = none) :
    (∀ h, h <+: Deed.historyOfAll ds place s →
      (∀ t, (s.bridge.after h).slot = some t →
        (s.bridge.after h).fate t = .pending ∧ InProgress (events h) t) ∧
      ((∀ t, ¬ InProgress (events h) t) → (s.bridge.after h).isAwaiting = false)) ∧
    (∀ h t o b, h ++ [⟨.ended t o, b⟩] <+: Deed.historyOfAll ds place s →
      b.slot = if (s.bridge.after h).slot = t then none else (s.bridge.after h).slot) ∧
    ((Deed.runAll ds place).run s).2.bridge.isAwaiting = false ∧
    (∀ c ∈ Deed.callsOfAll ds [] place s, c.stream.queries = 1 → c.before.bridge.closed = false →
      ((c.outcome = .error .queryInFlight ∧ c.sending = none) ↔
        ∃ t ∈ c.around, c.before.bridge.slot = some t ∧ c.before.bridge.fate t = .pending)) := by
  have hc := Deed.historyOfAll_course ds hb place s
  refine ⟨?_, ?_, ?_, ?_⟩
  · intro h hh
    have ht := ((hc.path.of_prefix h hh).tended (tended_nil hfree)).holder
    refine ⟨ht, fun hnone => ?_⟩
    cases hs : (s.bridge.after h).slot with
    | none => rw [isAwaiting, hs, Option.isSome_none]
    | some t => exact absurd (ht t hs).2 (hnone t)
  · intro h t o b hh
    have hp := hc.path.of_prefix _ hh
    rw [after_concat] at hp
    exact hp.last.slot_ended
  · rcases hc.slot_eq_or with hn | hs
    · rw [isAwaiting, hn, Option.isSome_none]
    · rw [isAwaiting, hs, hfree, Option.isSome_none]
  · intro c hmem hq hopen
    obtain ⟨⟨ds', e, -, hcall⟩, hheld⟩ := Deed.mem_callsOfAll ds hb [] place s c hmem
    have hheld := hheld (held_of_free hfree [])
    have hiff := Session.callOf_inFlight_iff ds' e c.wait c.around hq hopen
    rw [← hcall] at hiff
    rw [hiff]
    constructor
    · intro hs
      obtain ⟨t, ht⟩ := Option.ne_none_iff_exists'.mp hs
      obtain ⟨hin, -, hp⟩ := hheld t ht
      exact ⟨t, hin, ht, hp⟩
    · rintro ⟨t, -, ht, -⟩ hn
      rw [hn] at ht
      cases ht

/-- A query whose sender asks in vain, closes and opens the bridge, asks with a stream that
cannot be written, and asks twice more, the one query within the other, before both senders
are lost. -/
def contendedQuery : List Deed :=
  [.query (.text "GetMode") .null .null
    [.query (.text "GetFuel") .null .null [] (.gives (.bool true)),
      .close, .reopen,
      .ask [.query (.text "GetHeading") [], .wait (.text "soon")] .null [] (.gives (.bool true)),
      .query (.text "GetSpeed") .null .null
        [.query (.text "GetFuel") .null .null [.respond (.text "never")] (.gives (.bool true))]
        (.fails (.raised .runtime "lost"))]
    (.fails (.raised .transport "down"))]

theorem Deed.slot_tended_contended :
    Deed.areOnBridge contendedQuery = true ∧ idleSession.bridge.slot = none ∧
    ((Deed.runAll contendedQuery 0).run idleSession).2.bridge.isAwaiting = false ∧
    (∃ c ∈ Deed.callsOfAll contendedQuery [] 0 idleSession, c.around = [0] ∧
      ∃ t ∈ c.around, c.before.bridge.slot = some t ∧ c.before.bridge.fate t = .pending) ∧
    (∃ c ∈ Deed.callsOfAll contendedQuery [] 0 idleSession, c.around = [2, 0] ∧
      ∃ t ∈ c.around, c.before.bridge.slot = some t ∧ c.before.bridge.fate t = .pending) := by
  obtain ⟨-, -, hidle, htold⟩ := Deed.slot_tended contendedQuery rfl 0 idleSession rfl
  have hfirst : ∃ c ∈ Deed.callsOfAll contendedQuery [] 0 idleSession, c.around = [0] ∧
      c.stream.queries = 1 ∧ c.before.bridge.closed = false ∧
      c.outcome = .error .queryInFlight ∧ c.sending = none :=
    ⟨_, List.mem_of_getElem? (i := 1) rfl, rfl, rfl, rfl, rfl, rfl⟩
  have hlast : ∃ c ∈ Deed.callsOfAll contendedQuery [] 0 idleSession, c.around = [2, 0] ∧
      c.stream.queries = 1 ∧ c.before.bridge.closed = false ∧
      c.outcome = .error .queryInFlight ∧ c.sending = none :=
    ⟨_, List.mem_of_getElem? (i := 4) rfl, rfl, rfl, rfl, rfl, rfl⟩
  obtain ⟨c, hc, hca, hcq, hco, hct⟩ := hfirst
  obtain ⟨d, hd, hda, hdq, hdo, hdt⟩ := hlast
  exact ⟨rfl, rfl, hidle, ⟨c, hc, hca, (htold c hc hcq hco).mp hct⟩,
    ⟨d, hd, hda, (htold d hd hdq hdo).mp hdt⟩⟩

end Cockpit
