import Cockpit.Proofs.Bridge.Counts
import Cockpit.Proofs.Bridge.Slot

/-!
# The counts of a bridge as a ledger

The counts of a bridge change by entries.  Every query call ends in exactly one of eight
outcomes, and the entry of that outcome is all that the call itself adds to the counts.
What is done while its payload is on the way adds entries of its own, and a response that
nobody waits for adds one.  Nothing else adds any.

How a call ends depends on what its sender did and on the first event meanwhile that was
not quiet.  A response that was taken answers it, a closing gives it up, and without
either it waits in vain.  Two outcomes are those of waits that a clock cannot do or that
cannot be told: the first counts as sent only, and both end in a fault.

`QueryCall.Comes` lists the outcomes with what brings them about, and `QueryCall.Ends` adds
the effects.  `Deed.ledger_balances` says that in every run of deeds on a bridge each call
ends in one way only, and that the entries add up to the counts and the payloads.
-/

namespace Cockpit

open Op Bridge

/-! ## Outcomes -/

/-- How a query call ends. -/
inductive Outcome where
  /-- It got no slot. -/
  | rejected
  /-- Its payload was not delivered. -/
  | sendFailed
  | answered
  | timedOut
  /-- It was given up by a closing. -/
  | abandoned
  /-- Its stream could not be written, or its sender failed. -/
  | broken
  /-- It should wait longer than a clock can. -/
  | overlong
  /-- It waited in vain, and how long cannot be told. -/
  | unworded
  deriving DecidableEq

namespace Outcome

/-- What a call that ends so adds to the counts. -/
def entry : Outcome → Counts
  | rejected => 0
  | sendFailed => { sendFailures := 1 }
  | answered => { queriesSent := 1, responsesReceived := 1 }
  | timedOut => { queriesSent := 1, timeouts := 1 }
  | abandoned => { queriesSent := 1 }
  | broken => 0
  | overlong => { queriesSent := 1 }
  | unworded => { queriesSent := 1, timeouts := 1 }

/-- Whether a call can end so whatever it waits. -/
def isRegular : Outcome → Bool
  | overlong => false
  | unworded => false
  | _ => true

end Outcome

/-! ## What becomes of a call that waits -/

namespace Bridge

/-- The first event that does not leave the slot to whom it belongs. -/
def decisive (es : List Event) : Option Event := es.find? fun e => !e.isQuiet

/-- What becomes of the query that holds the slot, by what happens meanwhile. -/
def fateBy (es : List Event) : Fate :=
  match decisive es with
  | some (.delivered v (.ok true)) => .answered v
  | some .shut => .cancelled
  | _ => .pending

variable {b c : Bridge} {es waiting later : List Event} {e : Event} {t : Ticket}

theorem decisive_of_quiet (h : Quiet es) : decisive es = none := by
  rw [decisive, List.find?_eq_none]
  intro e he
  rw [h e he]
  exact nofun

theorem decisive_append (h : Quiet waiting) (he : e.isQuiet = false) :
    decisive (waiting ++ e :: later) = some e := by
  have hw := decisive_of_quiet h
  rw [decisive] at hw ⊢
  rw [List.find?_append, hw, Option.none_or, List.find?_cons_of_pos]
  rw [he]
  rfl

/-- A query that waits while some events happen has a fate: that of the decisive event. -/
inductive Decides (es : List Event) : Fate → Prop where
  | pending (h : decisive es = none) : Decides es .pending
  | answered {v : Value} (h : decisive es = some (.delivered v (.ok true)))
      (hv : v.isSet = true) : Decides es (.answered v)
  | cancelled (h : decisive es = some .shut) : Decides es .cancelled

/-- The ticket that holds the slot is settled by the first event that is not quiet. -/
theorem Kept.decides (h : Kept t b es c) (hp : b.fate t = .pending) : Decides es (c.fate t) := by
  cases h with
  | still _ hf hq =>
      rw [hf, hp]
      exact .pending (decisive_of_quiet hq)
  | @answered waiting later v _ hf he hv hq =>
      have hd : Event.isQuiet (.delivered v (.ok true)) = false := by
        rw [Event.isQuiet, hv]
        rfl
      rw [hf, he]
      exact .answered (decisive_append hq hd) hv
  | cancelled _ hf he hq =>
      rw [hf, he]
      exact .cancelled (decisive_append hq rfl)

end Bridge

namespace Line

/-- How a call whose payload was sent ends, and what it answers, by the fate of its ticket. -/
def conclusion (f : Fate) (wait : Value) : Outcome × Except Fault Value :=
  match f with
  | .answered v => (.answered, .ok v)
  | .cancelled => (.abandoned, .ok .null)
  | .pending =>
    match waitInVain wait with
    | .error f => (.overlong, .error f)
    | .ok _ =>
      match wait.toDouble with
      | .error f => (.unworded, .error f)
      | .ok _ => (.timedOut, .ok .null)

/-- Whether a clock can wait so long, and it can be told how long. -/
def canWait (wait : Value) : Bool :=
  (wait.isAbove (.int waitLimit)).toOption == some false && wait.toDouble.toOption.isSome

/-- A wait in vain that a clock can do is over and told. -/
theorem isRegular_conclusion {wait : Value} (h : canWait wait = true) (f : Fate) :
    (conclusion f wait).1.isRegular = true := by
  cases f with
  | answered v => rfl
  | cancelled => rfl
  | pending =>
      rw [canWait, Bool.and_eq_true, beq_iff_eq] at h
      obtain ⟨habove, hdouble⟩ := h
      have hvain : waitInVain wait = .ok () := by
        rw [waitInVain, Value.isPositive]
        rw [Value.isAbove] at habove ⊢
        cases hn : wait.toScalar with
        | error f =>
            rw [hn] at habove
            cases habove
        | ok a =>
            rw [hn] at habove
            have hle : Scalar.lt (.int waitLimit) a = false := Option.some.inj habove
            rw [Value.isAbove, hn]
            simp only [Except.map, hle]
            cases Scalar.lt (.int 0) a <;> rfl
      rw [conclusion, hvain]
      cases hd : wait.toDouble with
      | error f =>
          rw [hd] at hdouble
          cases hdouble
      | ok d => rfl

theorem run_conclude (t : Ticket) (wait : Value) (l : Line) :
    ((conclude t wait).run l).1 = (conclusion (l.bridge.fate t) wait).2 ∧
      ((conclude t wait).run l).2.bridge.counts =
        l.bridge.counts + (conclusion (l.bridge.fate t) wait).1.entry := by
  unfold conclude conclusion
  rw [change, run_update_bind, run_state_bind]
  have hf : l.bridge.countSent.fate t = l.bridge.fate t := rfl
  simp only [hf]
  cases l.bridge.fate t with
  | answered v => exact ⟨rfl, rfl⟩
  | cancelled => exact ⟨rfl, rfl⟩
  | pending =>
      dsimp only
      rw [run_liftM_bind]
      cases waitInVain wait with
      | error f => exact ⟨rfl, rfl⟩
      | ok _ =>
          dsimp only
          rw [change, run_update_bind, run_liftM_bind]
          cases wait.toDouble with
          | error f => exact ⟨rfl, rfl⟩
          | ok d => exact ⟨rfl, rfl⟩

end Line

/-! ## The outcome of a call -/

namespace Session

/-- What a call for a stream is told that gets no slot, nothing if it gets one. -/
def refusal? (stream : Stream) (b : Bridge) : Option (Except Fault Value) :=
  if stream.queries ≠ 1 then some (.error (.notOneQuery stream.queries))
  else if b.closed then some (.ok .null)
  else if b.isAwaiting then some (.error .queryInFlight)
  else none

variable {stream : Stream} {s : Session} {o : Except Fault Value}

/-- A call that is refused does nothing, and gets no slot. -/
theorem reserve_of_refusal (h : refusal? stream s.bridge = some o) :
    ∃ r u, (reserve stream).run s = (r, u) ∧ u.bridge = s.bridge ∧ u.payloads = s.payloads ∧
      (∀ t, r ≠ .ok (some t)) ∧ o = r.map fun _ => .null := by
  rw [refusal?] at h
  by_cases hq : stream.queries ≠ 1
  · rw [if_pos hq] at h
    cases h
    rw [reserve, if_pos hq]
    exact ⟨_, _, rfl, rfl, rfl, (fun _ h => by cases h), rfl⟩
  · rw [if_neg hq] at h
    rw [reserve, if_neg hq, run_on]
    rcases Line.claim_cases (linePart.get s) with ⟨hc, hs, hr⟩ | ⟨hc, j, hr⟩ | ⟨hc, hs, hr⟩
    · have hw : s.bridge.isAwaiting = false := congrArg Option.isSome hs
      have hc : s.bridge.closed = false := hc
      simp [hc, hw] at h
    · have hc : s.bridge.closed = true := hc
      rw [if_pos hc] at h
      cases h
      rw [hr]
      exact ⟨_, _, rfl, rfl, rfl, (fun _ h => by cases h), rfl⟩
    · have hc : s.bridge.closed = false := hc
      have hw : s.bridge.isAwaiting = true := Option.isSome_iff_ne_none.mpr hs
      simp only [hc, hw, Bool.false_eq_true, if_false, if_true] at h
      cases h
      rw [hr]
      exact ⟨_, _, rfl, rfl, rfl, (fun _ h => by cases h), rfl⟩

/-- A call that is not refused takes the slot. -/
theorem reserve_of_no_refusal (h : refusal? stream s.bridge = none) : (reserve stream).run s =
    (.ok (some s.bridge.fates.length), { s with bridge := s.bridge.take }) := by
  rw [refusal?] at h
  by_cases hq : stream.queries ≠ 1
  · rw [if_pos hq] at h
    cases h
  · rw [if_neg hq] at h
    have hq := Decidable.not_not.mp hq
    cases hc : s.bridge.closed with
    | true =>
        rw [hc] at h
        cases h
    | false =>
        cases hs : s.bridge.slot with
        | none => exact reserve_free hq hc hs
        | some t => simp [hc, isAwaiting, hs] at h

end Session

namespace QueryCall

open Session

/-- The seconds that a call waits. -/
def patience (c : QueryCall) : Value := waitOf c.wait c.before.bridge

/-- The session in which the sender of a call ended, or the call began if it had none. -/
def rest (c : QueryCall) : Session :=
  match c.sending with
  | some x => x.finish
  | none => c.before

variable {c : QueryCall} {k : Outcome}

theorem rest_of_none (h : c.sending = none) : c.rest = c.before := by
  rw [rest, h]

theorem rest_of_some {x : Sending} (h : c.sending = some x) : c.rest = x.finish := by
  rw [rest, h]

/-- What brings an outcome about. -/
inductive Comes (c : QueryCall) : Outcome → Prop where
  | rejected (hx : c.sending = none) (hr : refusal? c.stream c.before.bridge = some c.outcome) :
      Comes c .rejected
  | sendFailed {x : Sending} (hx : c.sending = some x) (hs : sentBy x.result = .ok false)
      (ho : c.outcome = .ok .null) : Comes c .sendFailed
  | answered {x : Sending} {v : Value} (hx : c.sending = some x) (hs : sentBy x.result = .ok true)
      (hd : decisive x.events = some (.delivered v (.ok true))) (hv : v.isSet = true)
      (ho : c.outcome = .ok v) : Comes c .answered
  | abandoned {x : Sending} (hx : c.sending = some x) (hs : sentBy x.result = .ok true)
      (hd : decisive x.events = some .shut) (ho : c.outcome = .ok .null) : Comes c .abandoned
  | timedOut {x : Sending} {d : Double} (hx : c.sending = some x)
      (hs : sentBy x.result = .ok true) (hd : decisive x.events = none)
      (hw : Line.waitInVain c.patience = .ok ()) (ht : c.patience.toDouble = .ok d)
      (ho : c.outcome = .ok .null) : Comes c .timedOut
  | overlong {x : Sending} {f : Fault} (hx : c.sending = some x)
      (hs : sentBy x.result = .ok true) (hd : decisive x.events = none)
      (hw : Line.waitInVain c.patience = .error f) (ho : c.outcome = .error f) :
      Comes c .overlong
  | unworded {x : Sending} {f : Fault} (hx : c.sending = some x)
      (hs : sentBy x.result = .ok true) (hd : decisive x.events = none)
      (hw : Line.waitInVain c.patience = .ok ()) (ht : c.patience.toDouble = .error f)
      (ho : c.outcome = .error f) : Comes c .unworded
  | unwritten {f : Fault} (hx : c.sending = none)
      (hr : refusal? c.stream c.before.bridge = none) (hw : c.stream.framed = .error f)
      (ho : c.outcome = .error f) : Comes c .broken
  | senderFailed {x : Sending} {f : Fault} (hx : c.sending = some x)
      (hs : sentBy x.result = .error f) (ho : c.outcome = .error f) : Comes c .broken

/-- A call ends with an outcome and with its own effects, which are those of the outcome.
Its sender, if it has one, is handed what the stream is written as, and begins where the
call began. -/
structure Ends (c : QueryCall) (k : Outcome) : Prop where
  comes : c.Comes k
  counts : c.after.bridge.counts = c.rest.bridge.counts + k.entry
  payloads : c.after.payloads = c.rest.payloads
  begins : ∀ x, c.sending = some x → c.stream.framed = .ok x.payload ∧
    x.start.bridge.counts = c.before.bridge.counts ∧ x.start.payloads = c.before.payloads

/-- The outcome of a call. -/
def verdict (c : QueryCall) : Outcome :=
  match c.sending with
  | none => if (refusal? c.stream c.before.bridge).isSome then .rejected else .broken
  | some x =>
    match sentBy x.result with
    | .error _ => .broken
    | .ok false => .sendFailed
    | .ok true => (Line.conclusion (fateBy x.events) c.patience).1

/-- What brings an outcome about brings about no other one. -/
theorem Comes.eq_verdict (h : c.Comes k) : k = c.verdict := by
  rw [verdict]
  cases h with
  | rejected hx hr => rw [hx, hr]; rfl
  | sendFailed hx hs _ => rw [hx]; simp only [hs]
  | answered hx hs hd _ _ => rw [hx]; simp only [hs, fateBy, hd, Line.conclusion]
  | abandoned hx hs hd _ => rw [hx]; simp only [hs, fateBy, hd, Line.conclusion]
  | timedOut hx hs hd hw ht _ => rw [hx]; simp only [hs, fateBy, hd, Line.conclusion, hw, ht]
  | overlong hx hs hd hw _ => rw [hx]; simp only [hs, fateBy, hd, Line.conclusion, hw]
  | unworded hx hs hd hw ht _ => rw [hx]; simp only [hs, fateBy, hd, Line.conclusion, hw, ht]
  | unwritten hx hr _ _ => rw [hx, hr]; rfl
  | senderFailed hx hs _ => rw [hx]; simp only [hs]

/-- A call whose payload was delivered has the outcome of its ticket's fate. -/
theorem comes_of_decides {x : Sending} {f : Fate} (hx : c.sending = some x)
    (hs : sentBy x.result = .ok true)
    (hd : Decides x.events f) (ho : c.outcome = (Line.conclusion f c.patience).2) :
    c.Comes (Line.conclusion f c.patience).1 := by
  cases hd with
  | answered hd hv => exact .answered hx hs hd hv ho
  | cancelled hd => exact .abandoned hx hs hd ho
  | pending hd =>
      rw [Line.conclusion] at ho ⊢
      cases hw : Line.waitInVain c.patience with
      | error f =>
          rw [hw] at ho
          exact .overlong hx hs hd hw ho
      | ok _ =>
          rw [hw] at ho
          cases ht : c.patience.toDouble with
          | error f =>
              rw [ht] at ho
              exact .unworded hx hs hd hw ht ho
          | ok d =>
              rw [ht] at ho
              exact .timedOut hx hs hd hw ht ho

/-- A call ends with a regular outcome if a clock can wait as long as it waits. -/
theorem isRegular_verdict (h : Line.canWait c.patience = true) :
    c.verdict.isRegular = true := by
  rw [verdict]
  cases c.sending with
  | none =>
      dsimp only
      split
      · rfl
      · rfl
  | some x =>
      dsimp only
      rcases sentBy x.result with f | _ | _
      · rfl
      · rfl
      · exact Line.isRegular_conclusion h _

end QueryCall

/-! ## Every call ends -/

namespace Session

variable {ds : List Deed} {ending : Ending} {stream : Stream} {wait : Value}
  {around : List Ticket} {s : Session} {c : QueryCall}

/-- A call that is refused is rejected and changes nothing. -/
theorem callOf_rejected {o : Except Fault Value} (hc : c = callOf ds ending stream wait around s)
    (h : refusal? stream s.bridge = some o) : c.Ends .rejected := by
  obtain ⟨r, u, hr, hb, hp, hn, rfl⟩ := reserve_of_refusal h
  have hx : c.sending = none := by
    rw [hc, callOf, handOver, hr]
    rcases r with f | _ | t
    · rfl
    · rfl
    · exact absurd rfl (hn t)
  have hrun : (ask (sender (Deed.runAll ds) ending) stream wait).run s =
      (r.map fun _ => .null, u) := by
    rw [run_ask, hr]
    rcases r with f | _ | t
    · rfl
    · rfl
    · exact absurd rfl (hn t)
  have hrest : c.rest = s := by rw [QueryCall.rest_of_none hx, hc, callOf]
  have ho : c.outcome = r.map fun _ => .null := by rw [hc, callOf, hrun]
  have ha : c.after = u := by rw [hc, callOf, hrun]
  refine ⟨.rejected hx ?_, ?_, ?_, ?_⟩
  · rw [ho, hc, callOf]
    exact h
  · rw [hrest, ha, hb, Outcome.entry, add_zero]
  · rw [hrest, ha, hp]
  · intro x hsome
    cases hx.symm.trans hsome

/-- A call whose stream cannot be written is broken and changes nothing. -/
theorem callOf_unwritten {f : Fault} {v : Session}
    (hc : c = callOf ds ending stream wait around s) (h : refusal? stream s.bridge = none)
    (hw : (prepare stream).run { s with bridge := s.bridge.take } = (.error f, v)) :
    c.Ends .broken := by
  have hb := bridge_prepare stream { s with bridge := s.bridge.take }
  have hp := transmissions_prepare stream { s with bridge := s.bridge.take }
  have hf := result_prepare stream { s with bridge := s.bridge.take }
  rw [hw] at hb hp hf
  have hr := reserve_of_no_refusal h
  have hx : c.sending = none := by
    rw [hc, callOf, handOver, hr]
    dsimp only
    rw [hw]
  have hrun := run_ask (sender (Deed.runAll ds) ending) stream wait s
  rw [hr] at hrun
  dsimp only at hrun
  rw [run_complete_unwritten hw] at hrun
  have hrest : c.rest = s := by rw [QueryCall.rest_of_none hx, hc, callOf]
  have ho : c.outcome = .error f := by rw [hc, callOf, hrun]
  have ha : c.after = giveBack s.bridge.fates.length (linePart.get v) v := by
    rw [hc, callOf, hrun]
  have hcounts : v.bridge.counts = s.bridge.counts := by
    rw [hb, counts_take]
  refine ⟨.unwritten hx ?_ ?_ ho, ?_, ?_, ?_⟩
  · rw [hc, callOf]
    exact h
  · rw [hc, callOf]
    exact hf.symm
  · rw [hrest, ha, counts_giveBack, Outcome.entry, add_zero]
    exact hcounts
  · rw [hrest, ha, payloads_giveBack]
    exact payloads_congr hp
  · intro x hsome
    cases hx.symm.trans hsome

/-- While its sender does deeds, a call holds the slot, and its fate is what they decide. -/
theorem decides_meanwhile {payload : String} {r : Except Fault Value} {u v : Session}
    (hds : Deed.areOnBridge ds = true) (hb : v.bridge = s.bridge.take)
    (hrun : (sender (Deed.runAll ds) ending payload).run v = (r, u)) :
    Decides (Deed.eventsOfAll ds v.transmissions.length (transmit payload v))
      (u.bridge.fate s.bridge.fates.length) := by
  have hcourse := Deed.historyOfAll_course ds hds v.transmissions.length (transmit payload v)
  rw [← run_sender (Deed.runAll ds) ending payload v, hrun] at hcourse
  have hstart : (transmit payload v).bridge = s.bridge.take := hb
  rw [hstart] at hcourse
  have hlt : s.bridge.fates.length < s.bridge.take.fates.length := by
    rw [length_take]
    exact Nat.lt_succ_self _
  exact (hcourse.held hlt (slot_take _)).decides (fate_take_self _)

/-- What is known of the sending of a call whose stream can be written. -/
theorem sending_callOf {payload : String} {r : Except Fault Value} {u v : Session}
    (hc : c = callOf ds ending stream wait around s) (h : refusal? stream s.bridge = none)
    (hw : (prepare stream).run { s with bridge := s.bridge.take } = (.ok payload, v))
    (hrun : (sender (Deed.runAll ds) ending payload).run v = (r, u)) :
    c.sending = some ⟨payload, v,
      Deed.eventsOfAll ds v.transmissions.length (transmit payload v), r, u⟩ := by
  rw [hc, callOf, handOver, reserve_of_no_refusal h]
  dsimp only
  rw [hw]
  dsimp only
  rw [hrun]

/-- Its sender is given the stream as it is written, and nothing has been counted yet. -/
theorem begins_callOf {x : Sending}
    (hc : c = callOf ds ending stream wait around s)
    (hw : (prepare stream).run { s with bridge := s.bridge.take } = (.ok x.payload, x.start)) :
    c.stream.framed = .ok x.payload ∧ x.start.bridge.counts = c.before.bridge.counts ∧
      x.start.payloads = c.before.payloads := by
  have hb := bridge_prepare stream { s with bridge := s.bridge.take }
  have hp := transmissions_prepare stream { s with bridge := s.bridge.take }
  have hf := result_prepare stream { s with bridge := s.bridge.take }
  rw [hw] at hb hp hf
  dsimp only at hb hp hf
  have hbefore : c.before = s := by rw [hc, callOf]
  have hstream : c.stream = stream := by rw [hc, callOf]
  rw [hstream, hbefore, hb, counts_take]
  exact ⟨hf.symm, rfl, payloads_congr hp⟩

/-- A call whose sender was called ends by how the sender ended and by what happened
meanwhile. -/
theorem callOf_sent {payload : String} {v : Session} (hds : Deed.areOnBridge ds = true)
    (hc : c = callOf ds ending stream wait around s) (h : refusal? stream s.bridge = none)
    (hw : (prepare stream).run { s with bridge := s.bridge.take } = (.ok payload, v)) :
    ∃ k, c.Ends k := by
  have hb := bridge_prepare stream { s with bridge := s.bridge.take }
  rw [hw] at hb
  have hr := reserve_of_no_refusal h
  obtain ⟨r, u, hrun⟩ : ∃ r u, (sender (Deed.runAll ds) ending payload).run v = (r, u) :=
    ⟨_, _, rfl⟩
  have hx := sending_callOf hc h hw hrun
  have hpatience : c.patience = waitOf wait s.bridge := by rw [QueryCall.patience, hc, callOf]
  have hbegins : ∀ x, c.sending = some x → c.stream.framed = .ok x.payload ∧
      x.start.bridge.counts = c.before.bridge.counts ∧ x.start.payloads = c.before.payloads := by
    intro x hsome
    obtain rfl := Option.some.inj (hx.symm.trans hsome)
    exact begins_callOf hc hw
  have hdecides := decides_meanwhile hds hb hrun
  obtain ⟨w, hwb, hwp, hdone⟩ := run_complete (waitOf wait s.bridge) s.bridge.fates.length hw hrun
  have hask := run_ask (sender (Deed.runAll ds) ending) stream wait s
  rw [hr] at hask
  dsimp only at hask
  rw [hdone] at hask
  have hout : c.outcome = ((ask (sender (Deed.runAll ds) ending) stream wait).run s).1 := by
    rw [hc, callOf]
  have hafter : c.after = ((ask (sender (Deed.runAll ds) ending) stream wait).run s).2 := by
    rw [hc, callOf]
  rw [hask] at hout hafter
  have hrest : c.rest = u := QueryCall.rest_of_some hx
  cases hs : sentBy r with
  | error f =>
      rw [hs] at hout hafter
      refine ⟨.broken, .senderFailed hx hs hout, ?_, ?_, hbegins⟩
      · rw [hrest, hafter, counts_giveBack, Outcome.entry, add_zero]
        exact congrArg Bridge.counts hwb
      · rw [hrest, hafter, payloads_giveBack, hwp]
  | ok sent =>
      cases sent with
      | false =>
          rw [hs] at hout hafter
          refine ⟨.sendFailed, .sendFailed hx hs hout, ?_, ?_, hbegins⟩
          · rw [hrest, hafter, counts_giveBack, ← hwb]
            rfl
          · rw [hrest, hafter, payloads_giveBack, hwp]
      | true =>
          obtain ⟨hanswer, hcounts⟩ :=
            Line.run_conclude s.bridge.fates.length (waitOf wait s.bridge) (linePart.get w)
          have hline : (linePart.get w).bridge = u.bridge := hwb
          rw [hline] at hanswer hcounts
          rw [hs] at hout hafter
          dsimp only at hout hafter
          rw [hanswer] at hout
          have hadds : c.after.bridge.counts = c.rest.bridge.counts + (Line.conclusion
              (u.bridge.fate s.bridge.fates.length) (waitOf wait s.bridge)).1.entry := by
            rw [hafter, counts_giveBack, hcounts, hrest]
          have hgives : c.after.payloads = c.rest.payloads := by
            rw [hrest, hafter, payloads_giveBack, hwp]
          refine ⟨_, ?_, hadds, hgives, hbegins⟩
          rw [← hpatience] at hout ⊢
          exact QueryCall.comes_of_decides hx hs hdecides hout

/-- Every query call ends in exactly one outcome. -/
theorem callOf_ends (hds : Deed.areOnBridge ds = true)
    (hc : c = callOf ds ending stream wait around s) : c.Ends c.verdict := by
  have hends : ∃ k, c.Ends k := by
    cases h : refusal? stream s.bridge with
    | some o => exact ⟨_, callOf_rejected hc h⟩
    | none =>
        rcases hw : (prepare stream).run { s with bridge := s.bridge.take } with ⟨f | payload, v⟩
        · exact ⟨_, callOf_unwritten hc h hw⟩
        · exact callOf_sent hds hc h hw
  obtain ⟨k, hk⟩ := hends
  rw [← hk.comes.eq_verdict]
  exact hk

end Session

/-! ## Adding up -/

/-- What some calls add to the counts themselves. -/
def entriesOf (cs : List QueryCall) : Counts := (cs.map fun c => c.verdict.entry).sum

/-- The payloads that some calls hand to their senders. -/
def payloadsOf (cs : List QueryCall) : List String :=
  cs.filterMap fun c => c.sending.map Sending.payload

theorem entriesOf_append (cs ds : List QueryCall) :
    entriesOf (cs ++ ds) = entriesOf cs + entriesOf ds := by
  rw [entriesOf, List.map_append, List.sum_append]
  rfl

theorem payloadsOf_append (cs ds : List QueryCall) :
    payloadsOf (cs ++ ds) = payloadsOf cs ++ payloadsOf ds := List.filterMap_append

/-- From one session to another, some calls and events account for the counts and for the
payloads. -/
structure Balanced (s : Session) (cs : List QueryCall) (es : List Event) (u : Session) :
    Prop where
  counts : u.bridge.counts = s.bridge.counts + entriesOf cs + strays es
  payloads : u.payloads = s.payloads ++ payloadsOf cs

namespace Balanced

variable {s u v : Session} {cs ds : List QueryCall} {es fs : List Event}

theorem nil (hb : u.bridge.counts = s.bridge.counts) (hp : u.payloads = s.payloads) :
    Balanced s [] [] u where
  counts := by
    rw [hb]
    exact ((add_zero _).trans (add_zero _)).symm
  payloads := by
    rw [hp]
    exact (List.append_nil _).symm

/-- An event outside of calls accounts for itself. -/
theorem turn {e : Event} (h : Turn s.bridge e u.bridge) (hp : u.payloads = s.payloads) :
    Balanced s [] [e] u where
  counts := by
    rw [h.counts_eq]
    exact congrArg (· + _) (add_zero _).symm
  payloads := by
    rw [hp]
    exact (List.append_nil _).symm

theorem append (h : Balanced s cs es u) (h' : Balanced u ds fs v) :
    Balanced s (cs ++ ds) (es ++ fs) v where
  counts := by
    rw [h'.counts, h.counts, entriesOf_append, strays_append]
    simp only [add_assoc, add_left_comm, add_comm]
  payloads := by
    rw [h'.payloads, h.payloads, payloadsOf_append, List.append_assoc]

end Balanced

namespace Session

variable {ds : List Deed} {ending : Ending} {stream : Stream} {wait : Value}
  {around : List Ticket} {s : Session} {c : QueryCall}

/-- The stray responses of a call are those that came while its sender ran. -/
theorem strays_calling (ds : List Deed) (ending : Ending) (stream : Stream) (wait : Value)
    (s : Session) :
    strays (events (calling (Deed.runAll ds) (Deed.historyOfAll ds) ending stream wait s)) =
      match handOver ds ending stream s with
      | some x => strays x.events
      | none => 0 := by
  rw [calling, handOver]
  rcases (reserve stream).run s with ⟨f | _ | t, u⟩
  · rfl
  · rfl
  · dsimp only
    rw [sending]
    rcases (prepare stream).run u with ⟨f | payload, v⟩
    · rfl
    · dsimp only
      simp only [events, List.map_cons, List.map_append, List.map_nil]
      rw [strays_of_not rfl, List.append_assoc, strays_append, List.singleton_append,
        strays_of_not rfl, strays_of_not rfl, strays_nil, add_zero]
      rfl

/-- A call adds its own entry and what is done while its sender runs. -/
theorem callOf_balanced (hds : Deed.areOnBridge ds = true)
    (hc : c = callOf ds ending stream wait around s)
    (hd : ∀ around place u, Balanced u (Deed.callsOfAll ds around place u)
      (Deed.eventsOfAll ds place u) ((Deed.runAll ds place).run u).2) :
    Balanced s (c :: c.within (Deed.callsOfAll ds))
      (events (calling (Deed.runAll ds) (Deed.historyOfAll ds) ending stream wait s))
      c.after := by
  have hends := callOf_ends hds hc
  have hsending : c.sending = handOver ds ending stream s := by rw [hc, callOf]
  have hbefore : c.before = s := by rw [hc, callOf]
  have hstrays := strays_calling ds ending stream wait s
  rw [← hsending] at hstrays
  cases hx : c.sending with
  | none =>
      rw [hx] at hstrays
      have hrest : c.rest = s := (QueryCall.rest_of_none hx).trans hbefore
      have hwithin : c.within (Deed.callsOfAll ds) = [] := by rw [QueryCall.within, hx]
      constructor
      · rw [hends.counts, hrest, hstrays, hwithin, add_zero, entriesOf, List.map_singleton,
          List.sum_singleton]
      · rw [hends.payloads, hrest, hwithin, payloadsOf, List.filterMap_cons, hx]
        exact (List.append_nil _).symm
  | some x =>
      rw [hx] at hstrays
      obtain ⟨-, hcounts, hpayloads⟩ := hends.begins x hx
      rw [hbefore] at hcounts hpayloads
      have hrest : c.rest = x.finish := QueryCall.rest_of_some hx
      obtain ⟨-, -, v, -, heq⟩ := handOver_eq_some (hsending.symm.trans hx)
      have hwithin : c.within (Deed.callsOfAll ds) = Deed.callsOfAll ds (c.ticket :: c.around)
          x.start.transmissions.length (transmit x.payload x.start) := by
        rw [QueryCall.within, hx]
      have hin := hd (c.ticket :: c.around) x.start.transmissions.length
        (transmit x.payload x.start)
      rw [← hwithin, ← run_sender (Deed.runAll ds) ending] at hin
      have hfinish : ((sender (Deed.runAll ds) ending x.payload).run x.start).2 = x.finish := by
        rw [heq]
      have hevents : Deed.eventsOfAll ds x.start.transmissions.length
          (transmit x.payload x.start) = x.events := by
        rw [heq]
      rw [hfinish, hevents] at hin
      have hsum : x.finish.bridge.counts =
          s.bridge.counts + entriesOf (c.within (Deed.callsOfAll ds)) + strays x.events := by
        rw [hin.counts, ← hcounts]
        rfl
      constructor
      · rw [hends.counts, hrest, hstrays, hsum, entriesOf, entriesOf, List.map_cons,
          List.sum_cons]
        simp only [add_left_comm, add_comm]
      · rw [hends.payloads, hrest, hin.payloads, payloads_transmit, hpayloads,
          List.append_assoc, payloadsOf, payloadsOf, List.filterMap_cons, hx]
        rfl

end Session

open Session

mutual

/-- The calls and the events of a deed account for the counts and the payloads. -/
theorem Deed.balanced : ∀ (d : Deed), d.isOnBridge = true → ∀ (around : List Ticket)
    (s : Session), Balanced s (d.calls around s) (events (d.history s)) (d.run.run s).2
  | .query fn args wait ds e => by
      intro hb around s
      rw [Deed.isOnBridge] at hb
      rw [Deed.calls, Deed.history, Deed.run, state_bind_pure, Session.query, run_liftM_bind]
      cases queryOf fn args with
      | error f => exact .turn (.refused nofun) rfl
      | ok stream => exact callOf_balanced hb rfl (Deed.balancedAll ds hb)
  | .ask stream wait ds e => by
      intro hb around s
      rw [Deed.isOnBridge] at hb
      rw [Deed.calls, Deed.history, Deed.run, state_bind_pure]
      exact callOf_balanced hb rfl (Deed.balancedAll ds hb)
  | .respond r => by
      intro _ around s
      rw [Deed.history, Deed.run, state_bind_pure]
      exact .turn (Line.answer_turn r (linePart.get s)) rfl
  | .telemetry raw => by
      intro _ around s
      rw [Deed.history, Deed.run, state_bind_pure]
      have hp : ((receive raw).run s).2.payloads = s.payloads :=
        payloads_congr (transmissions_receive raw s)
      have hrun := run_receive raw s
      have hb := bridge_decode raw s
      rcases h : (decode raw).run s with ⟨f | _ | p, u⟩
      · rw [h] at hrun hb
        simp only [h]
        exact .nil (congrArg Bridge.counts (hrun.trans hb)) hp
      · rw [h] at hrun hb
        simp only [h]
        exact .nil (congrArg Bridge.counts (hrun.trans hb)) hp
      · rw [h] at hrun hb
        have hturn := Line.answer_turn (responseOf p) (linePart.get u)
        have hu : (linePart.get u).bridge = s.bridge := hb
        rw [hu] at hturn
        simp only [h]
        refine .turn ?_ hp
        rw [hrun]
        exact hturn
  | .close => by
      intro _ around s
      rw [Deed.history, Deed.run, state_bind_pure]
      exact .turn (Line.close_turn (linePart.get s)) rfl
  | .reopen => by
      intro _ around s
      rw [Deed.history, Deed.run, state_bind_pure]
      exact .turn .reopened rfl
  | .lineState => fun _ _ _ => .nil rfl rfl
  | .abandonedQuery .. | .askWith .. | .askUnderSettings .. | .builderStep .. | .inspect ..
  | .composeStream .. | .sendUpload .. | .agentStatus .. | .upload .. | .stop
  | .strictActions | .configure .. | .fail .. => nofun
termination_by structural d => d

/-- The calls and the events of deeds one after another account for them too. -/
theorem Deed.balancedAll : ∀ (ds : List Deed), Deed.areOnBridge ds = true →
    ∀ (around : List Ticket) (place : Nat) (s : Session),
      Balanced s (Deed.callsOfAll ds around place s) (Deed.eventsOfAll ds place s)
        ((Deed.runAll ds place).run s).2
  | [] => fun _ _ _ _ => .nil rfl rfl
  | d :: ds => by
      intro hb around place s
      rw [Deed.areOnBridge, Bool.and_eq_true] at hb
      obtain ⟨hd, hds⟩ := hb
      have hfirst := Deed.balanced d hd around s
      have hnote : Balanced (d.run.run s).2 [] [] (note place (d.run.run s).1 (d.run.run s).2) :=
        .nil rfl (payloads_note place _ _)
      have hrest := Deed.balancedAll ds hds around place
        (note place (d.run.run s).1 (d.run.run s).2)
      have hevents : Deed.eventsOfAll (d :: ds) place s = events (d.history s) ++
          Deed.eventsOfAll ds place (note place (d.run.run s).1 (d.run.run s).2) := by
        rw [Deed.eventsOfAll, Deed.historyOfAll, events, List.map_append]
        rfl
      rw [hevents, Deed.callsOfAll]
      exact hfirst.append (hnote.append hrest)
termination_by structural ds => ds

end

/-- In every run of deeds on a bridge:

* each query call ends in exactly one outcome, with the effects of that outcome, and the
  outcome is a regular one if a clock can wait as long as the call waits,
* the counts after the run are those before, with an entry for each call and one for each
  response that nobody waited for,
* the payloads that were handed over are those of the calls whose senders were called,
  one for each, in order. -/
theorem Deed.ledger_balances (ds : List Deed) (hb : Deed.areOnBridge ds = true) (place : Nat)
    (s : Session) :
    (∀ c ∈ Deed.callsOfAll ds [] place s, c.Ends c.verdict ∧ (∀ k, c.Comes k → k = c.verdict) ∧
      (Line.canWait c.patience = true → c.verdict.isRegular = true)) ∧
    ((Deed.runAll ds place).run s).2.bridge.counts = s.bridge.counts +
      ((Deed.callsOfAll ds [] place s).map fun c => c.verdict.entry).sum +
      strays (Deed.eventsOfAll ds place s) ∧
    ((Deed.runAll ds place).run s).2.payloads = s.payloads ++
      (Deed.callsOfAll ds [] place s).filterMap fun c => c.sending.map Sending.payload := by
  have hbalanced := Deed.balancedAll ds hb [] place s
  refine ⟨?_, hbalanced.counts, hbalanced.payloads⟩
  intro c hc
  obtain ⟨⟨ds', e, hds', hmade⟩, -⟩ := Deed.mem_callsOfAll ds hb [] place s c hc
  exact ⟨callOf_ends hds' hmade, fun _ hk => hk.eq_verdict, QueryCall.isRegular_verdict⟩

/-- Queries that end in every regular outcome. -/
def variedQueries : List Deed :=
  contendedQuery ++ crowdedQuery ++
    [.query (.text "GetMode") .null .null [] (.gives (.bool true)),
      .query (.text "GetMode") .null .null [.close] (.gives (.bool true))]

theorem Deed.ledger_balances_varied :
    Deed.areOnBridge variedQueries = true ∧
    (∀ c ∈ Deed.callsOfAll variedQueries [] 0 idleSession, c.Ends c.verdict) ∧
    ((Deed.callsOfAll variedQueries [] 0 idleSession).map QueryCall.verdict =
      [.sendFailed, .rejected, .broken, .broken, .rejected, .answered, .rejected, .answered,
        .timedOut, .abandoned]) ∧
    ((Deed.runAll variedQueries 0).run idleSession).2.bridge.counts =
      { queriesSent := 4, responsesReceived := 2, timeouts := 1, sendFailures := 1,
        strayResponses := 2 } := by
  obtain ⟨hends, hcounts, -⟩ := Deed.ledger_balances variedQueries rfl 0 idleSession
  refine ⟨rfl, fun c hc => (hends c hc).1, by decide +kernel, ?_⟩
  rw [hcounts]
  decide +kernel

/-- A query that nothing answers and that should wait longer than a clock can. -/
def patientQuery : List Deed :=
  [.query (.text "GetMode") .null (.int 10000000000) [] (.gives (.bool true))]

/-- A call can end in no regular outcome. -/
theorem Deed.ledger_overlong :
    ∃ c ∈ Deed.callsOfAll patientQuery [] 0 idleSession,
      c.patience = .int 10000000000 ∧ c.outcome = .error .overflow ∧
      c.after.bridge.counts = { queriesSent := 1 } ∧
      ¬ ∃ k, k.isRegular = true ∧ c.Ends k := by
  refine ⟨_, List.mem_of_getElem? (i := 0) rfl, rfl, rfl, rfl, ?_⟩
  rintro ⟨k, hk, hends⟩
  rw [hends.comes.eq_verdict] at hk
  cases hk

end Cockpit
