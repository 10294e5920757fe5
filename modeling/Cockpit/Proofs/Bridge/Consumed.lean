import Cockpit.Proofs.Bridge.Ledger

/-!
# What becomes of responses that were taken

Whoever brings a response is told whether it was taken.  A response that was taken went
to the query that held the slot.  What the call of this query returns still depends on
its sender, which has not ended yet.  If the sender succeeds, the call returns the
response.  If the connection was lost it returns nothing, and any other failure of the
sender is its own (`Bridge.returned`).

`Course.consumed` finds the call for every response that was taken, by induction on the
course.  The call began in the history before the response and ends after it, or it is
around the whole history.  `Course.received` counts.  While the slot is held from around,
one response at most is taken for the call around, which counts it when it ends.

`Deed.consumed_returned` says this of all runs of deeds on a bridge whose slot is empty.
-/

namespace Cockpit

open Op Bridge

/-- Whether a query was answered. -/
def Fate.isAnswered : Fate → Bool
  | .answered _ => true
  | _ => false

namespace Bridge

variable {a b c d : Bridge} {e : Event} {es : List Event} {g h : List Moment}
  {around : List Ticket} {t : Ticket} {v : Value} {r o : Except Fault Value}

/-! ## Answered calls -/

/-- What the call of a query with the answer `v` returns, by how its sender ended. -/
def returned (r : Except Fault Value) (v : Value) : Except Fault Value :=
  match sentBy r with
  | .ok true => .ok v
  | .ok false => .ok .null
  | .error f => .error f

theorem Finish.eq_returned (h : Finish t r b o c) (hf : b.fate t = .answered v) :
    o = returned r v := by
  rw [returned]
  cases h with
  | @answered w hr hw =>
      obtain rfl : w = v := Fate.answered.inj (hw.symm.trans hf)
      rw [hr]
  | abandoned _ hc => cases hc.symm.trans hf
  | timedOut _ hp _ => cases hp.symm.trans hf
  | overlong _ hp => cases hp.symm.trans hf
  | failed hr => rw [hr]
  | broken hr => rw [hr]

/-- A response that was taken while the slot was held and all was quiet answers its holder. -/
theorem Kept.fate_of_taken {waiting later : List Event}
    (h : Kept t b (waiting ++ .delivered v (.ok true) :: later) c) (hp : b.fate t = .pending)
    (hq : Quiet waiting) (hv : v.isSet = true) : c.fate t = .answered v := by
  have he : Event.isQuiet (.delivered v (.ok true)) = false := by
    rw [Event.isQuiet, hv]
    rfl
  have hd : decisive (waiting ++ .delivered v (.ok true) :: later) =
      some (.delivered v (.ok true)) := decisive_append hq he
  have hdecides := h.decides hp
  generalize c.fate t = f at hdecides ⊢
  cases hdecides with
  | pending hn => cases hn.symm.trans hd
  | answered hw _ =>
      cases hw.symm.trans hd
      rfl
  | cancelled hc => cases hc.symm.trans hd

/-! ## The call of a response -/

/-- A response that was taken. -/
def Event.isTaken : Event → Bool
  | .delivered _ (.ok taken) => taken
  | _ => false

/-- A part of a history from the place of a response: the sender of a call ends in it, and
the call then returns what it does with this answer. -/
def ReturnsIn (es : List Event) (t : Ticket) (v : Value) : Prop :=
  ∃ later r rest, es = later ++ .sent t r :: .ended (some t) (returned r v) :: rest

theorem ReturnsIn.append (h : ReturnsIn es t v) (fs : List Event) :
    ReturnsIn (es ++ fs) t v := by
  obtain ⟨later, r, rest, rfl⟩ := h
  exact ⟨later, r, rest ++ fs, List.append_assoc _ _ _⟩

/-- The places of the two ends. -/
theorem ReturnsIn.places {before rest : List Event} (h : ReturnsIn rest t v)
    (he : es = before ++ e :: rest) : ∃ m r, before.length < m ∧
      es[m]? = some (.sent t r) ∧ es[m + 1]? = some (.ended (some t) (returned r v)) := by
  obtain ⟨later, r, rest', rfl⟩ := h
  have hsent : es = (before ++ e :: later) ++
      .sent t r :: .ended (some t) (returned r v) :: rest' := by
    rw [he, List.append_assoc, List.cons_append]
  have hended : es = (before ++ e :: (later ++ [.sent t r])) ++
      .ended (some t) (returned r v) :: rest' := by
    rw [he, List.append_assoc, List.cons_append, List.append_assoc]
    rfl
  refine ⟨before.length + (later.length + 1), r, by omega, getElem?_cut hsent ?_,
    getElem?_cut hended ?_⟩
  · rw [List.length_append, List.length_cons]
  · rw [List.length_append, List.length_cons, List.length_append]
    rfl

/-- Before a response a call began that holds the slot, and it returns afterwards.  Or the
call is around the history, and all was quiet before the response. -/
inductive GoesTo (b : Bridge) (before rest : List Event) (t : Ticket) (v : Value) : Prop where
  | within (hb : .reserved t ∈ before) (hr : ReturnsIn rest t v)
  | around (hs : b.slot = some t) (hq : Quiet before)

theorem events_append (g h : List Moment) : events (g ++ h) = events g ++ events h :=
  List.map_append

theorem after_append (hg : b.after g = c) (h : List Moment) : b.after (g ++ h) = c.after h := by
  rw [after, after, List.getLast?_append]
  cases h.getLast? with
  | none => exact hg
  | some m => rfl

theorem after_cons (b : Bridge) (m : Moment) (h : List Moment) :
    b.after (m :: h) = m.bridge.after h := after_append (after_concat b [] m) h

/-- Two lists in a row, cut at an entry: the cut is one of the first list or of the second. -/
theorem cut_of_append_eq {α : Type} {xs ys before rest : List α} {x : α}
    (h : xs ++ ys = before ++ x :: rest) :
    (∃ rest', xs = before ++ x :: rest' ∧ rest = rest' ++ ys) ∨
      ∃ before', before = xs ++ before' ∧ ys = before' ++ x :: rest := by
  rcases append_eq_cut h with ⟨rest', hxs⟩ | hys
  · rw [hxs, List.append_assoc] at h
    exact Or.inl ⟨rest', hxs, (List.cons.inj (List.append_cancel_left h)).2.symm⟩
  · exact Or.inr hys

/-- Two moments at which no response is taken are not cut at one at which one is. -/
theorem not_taken_of_pair {before rest : List Moment} {x y m : Moment}
    (h : [x, y] = before ++ m :: rest) (hx : x.event.isTaken = false)
    (hy : y.event.isTaken = false) : m.event ≠ .delivered v (.ok true) := by
  intro hm
  have htaken : m.event.isTaken = true := congrArg Event.isTaken hm
  have hmem : m ∈ [x, y] := h ▸ List.mem_append_right before List.mem_cons_self
  rcases List.mem_pair.mp hmem with rfl | rfl
  · cases htaken.symm.trans hx
  · cases htaken.symm.trans hy

/-- A call is answered by the first response that is taken while its sender runs. -/
theorem Course.fate_of_taken {before rest : List Moment} {m : Moment} (hh : Course b.take h c)
    (hin : h = before ++ m :: rest) (hm : m.event = .delivered v (.ok true))
    (hq : Quiet (events before)) (hv : v.isSet = true) :
    c.fate b.fates.length = .answered v := by
  have hlt : b.fates.length < b.take.fates.length := by
    rw [length_take]
    exact Nat.lt_succ_self _
  have hheld := hh.held hlt (slot_take b)
  rw [hin, events_append, events, events, List.map_cons, hm] at hheld
  exact hheld.fate_of_taken (fate_take_self b) hq hv

namespace GoesTo

variable {before rest : List Event}

/-- What comes later does not matter. -/
theorem append (h : GoesTo b before rest t v) (es : List Event) :
    GoesTo b before (rest ++ es) t v := by
  cases h with
  | within hb hr => exact .within hb (hr.append es)
  | around hs hq => exact .around hs hq

/-- A call around the second part of a course is around the first part too, and it waited
through that. -/
theorem behind (ha : Held around a) (hg : Course a g b) (h : GoesTo b before rest t v) :
    GoesTo a (events g ++ before) rest t v := by
  cases h with
  | within hb hr => exact .within (List.mem_append_right _ hb) hr
  | around hs hq =>
      have hsa : a.slot = some t := by
        rcases hg.slot_eq_or with hn | hsame
        · cases hn.symm.trans hs
        · exact hsame.symm.trans hs
      cases hg.held (ha t hsa).2.1 hsa with
      | still _ _ hquiet => exact .around hsa (hquiet.append hq)
      | answered hne _ _ _ _ => exact absurd hs hne
      | cancelled hne _ _ _ => exact absurd hs hne

/-- A response that is taken while the sender of a call runs goes to a call within it, or it
is the first one for this call, which then ends with it. -/
theorem inCall {before rest : List Moment} {m : Moment} (hh : Course b.take h c)
    (hd : Finish b.fates.length r c o d) (hin : h = before ++ m :: rest)
    (hm : m.event = .delivered v (.ok true)) (hv : v.isSet = true)
    (hgoes : GoesTo b.take (events before) (events rest) t v) :
    GoesTo b (.reserved b.fates.length :: events before)
      (events rest ++ [.sent b.fates.length r, .ended (some b.fates.length) o]) t v := by
  cases hgoes with
  | within hb hr => exact .within (List.mem_cons_of_mem _ hb) (hr.append _)
  | around hs hq =>
      obtain rfl : b.fates.length = t := Option.some.inj hs
      obtain rfl := hd.eq_returned (hh.fate_of_taken hin hm hq hv)
      exact .within List.mem_cons_self ⟨events rest, r, [], rfl⟩

end GoesTo

/-- Every response that was taken was set and went to the query that held the slot, whose
call returns as it does with this answer. -/
theorem Course.consumed (h : Course b g c) : ∀ {around : List Ticket}, Held around b →
    ∀ {before rest : List Moment} {m : Moment} {v : Value}, g = before ++ m :: rest →
      m.event = .delivered v (.ok true) → v.isSet = true ∧
        ∃ t, (b.after before).slot = some t ∧ GoesTo b (events before) (events rest) t v := by
  induction h with
  | nil =>
      intro _ _ before rest m v he
      cases (List.nil_eq_append_iff.mp he).2
  | @turn b c e h =>
      intro _ _ before rest m v he hm
      obtain ⟨rfl, hone⟩ : before = [] ∧ m :: rest = [⟨e, c⟩] :=
        (List.append_eq_singleton_iff.mp he.symm).resolve_right fun h => List.cons_ne_nil _ _ h.2
      obtain ⟨rfl, rfl⟩ := List.cons.inj hone
      obtain rfl : e = .delivered v (.ok true) := hm
      cases h with
      | answers hr hs => exact ⟨hr, _, hs, .around hs (List.forall_mem_nil _)⟩
      | stray _ _ ht => exact absurd rfl ht
  | @append a b c g h hg hh ihg ihh =>
      intro around ha before rest m v he hm
      rcases cut_of_append_eq he with ⟨rest', hin, rfl⟩ | ⟨before', rfl, hin⟩
      · obtain ⟨hv, t, hs, hgoes⟩ := ihg ha hin hm
        rw [events_append]
        exact ⟨hv, t, hs, hgoes.append _⟩
      · obtain ⟨hv, t, hs, hgoes⟩ := ihh (ha.course hg) hin hm
        rw [events_append, after_append hg.path.after_eq]
        exact ⟨hv, t, hs, hgoes.behind ha hg⟩
  | @call b c d h r o _ _ hh hd ih =>
      intro around _ before rest m v he hm
      rw [callHistory, List.cons_append] at he
      cases before with
      | nil =>
          obtain ⟨rfl, -⟩ := List.cons.inj he
          cases hm
      | cons x before =>
          obtain ⟨rfl, htail⟩ := List.cons.inj he
          rcases cut_of_append_eq htail with ⟨rest', hin, rfl⟩ | ⟨before', rfl, hend⟩
          · obtain ⟨hv, t, hs, hgoes⟩ := ih (Held.take around b) hin hm
            rw [events_append, after_cons]
            exact ⟨hv, t, hs, hgoes.inCall hh hd hin hm hv⟩
          · exact absurd hm (not_taken_of_pair hend rfl rfl)
  | unsent _ _ =>
      intro _ _ before rest m v he hm
      exact absurd hm (not_taken_of_pair he rfl rfl)

/-! ## Counting responses -/

/-- Whether a payload was delivered, by the end of its sender. -/
def succeeded (r : Except Fault Value) : Bool :=
  match sentBy r with
  | .ok sent => sent
  | .error _ => false

/-- The sender of a call ends without success, though the call was answered meanwhile. -/
def Moment.isLost (m : Moment) : Bool :=
  match m.event with
  | .sent t r => (m.bridge.fate t).isAnswered && !succeeded r
  | _ => false

/-- The responses that were taken in some events. -/
def taken (es : List Event) : Nat := es.countP Event.isTaken

/-- The calls of a history that were answered and whose senders then failed. -/
def lost (g : List Moment) : Nat := g.countP Moment.isLost

/-- What is taken between two bridges for the call that holds the slot of the first one,
and not counted as received there. -/
def owed (b c : Bridge) : Nat :=
  match b.slot with
  | some t => (c.fate t).isAnswered.toNat
  | none => 0

theorem owed_of_free (h : b.slot = none) (c : Bridge) : owed b c = 0 := by
  rw [owed, h]

theorem owed_of_held (h : b.slot = some t) (c : Bridge) :
    owed b c = (c.fate t).isAnswered.toNat := by
  rw [owed, h]

theorem owed_self (hb : Held around b) : owed b b = 0 := by
  cases hs : b.slot with
  | none => exact owed_of_free hs b
  | some t =>
      rw [owed_of_held hs, (hb t hs).2.2]
      rfl

/-- What is owed to the call around adds up along a course. -/
theorem owed_add (ha : Held around a) (hg : Course a g b) (hh : Course b h c) :
    owed a c = owed a b + owed b c := by
  rcases hg.slot_eq_or with hnone | hsame
  -- The call around is no longer waiting, so nothing is taken for it later.
  · rw [owed_of_free hnone, Nat.add_zero]
    cases hs : a.slot with
    | none => rw [owed_of_free hs, owed_of_free hs]
    | some t =>
        have hlt : t < b.fates.length := Nat.lt_of_lt_of_le (ha t hs).2.1 hg.grows
        have hne : b.slot ≠ some t := hnone ▸ nofun
        rw [owed_of_held hs, owed_of_held hs, (hh.frozen hlt hne).2]
  · have hfirst : owed a b = owed b b := by rw [owed, owed, hsame]
    have hall : owed a c = owed b c := by rw [owed, owed, hsame]
    rw [hall, hfirst, owed_self (ha.course hg), Nat.zero_add]

theorem taken_append (es fs : List Event) : taken (es ++ fs) = taken es + taken fs :=
  List.countP_append

theorem lost_append (g h : List Moment) : lost (g ++ h) = lost g + lost h :=
  List.countP_append

theorem taken_callHistory (b : Bridge) (h : List Moment) (c : Bridge)
    (r o : Except Fault Value) (d : Bridge) :
    taken (events (callHistory b h c r o d)) = taken (events h) := by
  rw [events_callHistory, taken, List.countP_cons_of_neg Bool.false_ne_true, List.countP_append]
  rfl

/-- Of a call itself only the end of its sender can lose a response. -/
theorem lost_callHistory (b : Bridge) (h : List Moment) (c : Bridge)
    (r o : Except Fault Value) (d : Bridge) :
    lost (callHistory b h c r o d) = lost h + lost [⟨.sent b.fates.length r, c⟩] := by
  rw [callHistory, ← lost_append, lost, lost, List.cons_append,
    List.countP_cons_of_neg Bool.false_ne_true, List.countP_append, List.countP_append]
  rfl

/-- An event outside of calls takes a response only for the call that holds the slot. -/
theorem Turn.received (h : Turn b e c) (hb : Held around b) :
    c.responsesReceived + owed b c = b.responsesReceived + taken [e] := by
  cases h with
  | @answers r t hr hs =>
      rw [owed_of_held hs, fate_settle_self (hb t hs).2.1]
      rfl
  | @cancels t hs =>
      rw [owed_of_held hs, fate_settle_self (b := b.close) (hb t hs).2.1]
      rfl
  | @stray r taken hr hs ht =>
      rw [owed_of_free hs]
      rcases taken with f | _ | _
      · rfl
      · rfl
      · exact absurd rfl ht
  | unset hr => exact congrArg _ (owed_self hb)
  | shut hs => rw [owed_of_free hs]; rfl
  | reopened => exact congrArg _ (owed_self hb)
  | refused ho => exact congrArg _ (owed_self hb)

theorem lost_sent (t : Ticket) (r : Except Fault Value) (b : Bridge) :
    lost [⟨.sent t r, b⟩] = ((b.fate t).isAnswered && !succeeded r).toNat := by
  rw [lost, List.countP_singleton]
  exact (Bool.cond_eq_ite _ 1 0).symm

theorem received_release (t : Ticket) (b : Bridge) :
    (b.release t).responsesReceived = b.responsesReceived :=
  congrArg Counts.responsesReceived (counts_release t b)

theorem Turn.lost_eq (h : Turn b e c) : lost [⟨e, c⟩] = 0 := by
  cases h <;> rfl

/-- A call that was answered counts the answer or loses it, and no other call does. -/
theorem Finish.received (h : Finish t r b o c) :
    c.responsesReceived + lost [⟨.sent t r, b⟩] =
      b.responsesReceived + (b.fate t).isAnswered.toNat := by
  rw [lost_sent, succeeded]
  cases h with
  | answered hr hf => rw [hr, hf]; rfl
  | abandoned hr hf => rw [hr, hf]; rfl
  | timedOut hr hf _ => rw [hr, hf]; rfl
  | overlong hr hf => rw [hr, hf]; rfl
  | failed hr => rw [hr, Bool.not_false, Bool.and_true]; rfl
  | broken hr => rw [hr, Bool.not_false, Bool.and_true]

/-- Along a course every response that was taken is counted by its call, or lost with it,
or owed to the call around. -/
theorem Course.received (h : Course b g c) : ∀ {around : List Ticket}, Held around b →
    c.responsesReceived + lost g + owed b c = b.responsesReceived + taken (events g) := by
  induction h with
  | nil =>
      intro _ hb
      rw [owed_self hb]
      rfl
  | turn h =>
      intro _ hb
      rw [h.lost_eq]
      exact h.received hb
  | append hg hh ihg ihh =>
      intro _ ha
      rw [owed_add ha hg hh, lost_append, events_append, taken_append]
      have hfirst := ihg ha
      have hrest := ihh (ha.course hg)
      omega
  | @call b c d h r o _ hfree hh hd ih =>
      intro around _
      have hin := ih (Held.take around b)
      rw [owed_of_held (slot_take b)] at hin
      have hend := hd.received
      rw [owed_of_free hfree, lost_callHistory, taken_callHistory, received_release]
      have hreceived : b.take.responsesReceived = b.responsesReceived := rfl
      omega
  | @unsent b f _ hfree =>
      intro _ _
      rw [owed_of_free hfree, received_release]
      rfl

end Bridge

/-! ## Runs of deeds -/

/-- In every run of deeds on a bridge whose slot is empty at first:

* a response that was taken was set and went to the query that held the slot, whose call
  began before and ends afterwards, and returns the response if its sender succeeds, nothing
  if its payload was not delivered, and the fault of its sender if that failed otherwise,
* the responses that were taken are those that were counted as received, and those whose
  call then had a sender that did not succeed. -/
theorem Deed.consumed_returned (ds : List Deed) (hb : Deed.areOnBridge ds = true) (place : Nat)
    (s : Session) (hfree : s.bridge.slot = none) :
    (∀ (k : Nat) (v : Value),
      (Deed.eventsOfAll ds place s)[k]? = some (.delivered v (.ok true)) →
        v.isSet = true ∧ ∃ (t : Ticket) (j m : Nat) (r : Except Fault Value),
          (s.bridge.after ((Deed.historyOfAll ds place s).take k)).slot = some t ∧
          j < k ∧ k < m ∧
          (Deed.eventsOfAll ds place s)[j]? = some (.reserved t) ∧
          (Deed.eventsOfAll ds place s)[m]? = some (.sent t r) ∧
          (Deed.eventsOfAll ds place s)[m + 1]? = some (.ended (some t) (returned r v))) ∧
    ((Deed.runAll ds place).run s).2.bridge.responsesReceived +
        lost (Deed.historyOfAll ds place s) =
      s.bridge.responsesReceived + taken (Deed.eventsOfAll ds place s) := by
  have hc := Deed.historyOfAll_course ds hb place s
  have hheld := held_of_free hfree []
  refine ⟨?_, ?_⟩
  · intro k v hk
    obtain ⟨x, hx, hevent⟩ : ∃ x, (Deed.historyOfAll ds place s)[k]? = some x ∧
        x.event = .delivered v (.ok true) := by
      rw [Deed.eventsOfAll, events, List.getElem?_map] at hk
      exact Option.map_eq_some_iff.mp hk
    obtain ⟨before, rest, hcut, rfl⟩ := exists_cut_of_getElem? hx
    obtain ⟨hv, t, hs, hgoes⟩ := hc.consumed hheld hcut hevent
    refine ⟨hv, t, ?_⟩
    have hevents : Deed.eventsOfAll ds place s =
        events before ++ .delivered v (.ok true) :: events rest := by
      rw [Deed.eventsOfAll, hcut, events_append, events, events, List.map_cons, hevent]
    cases hgoes with
    | around hs _ => cases hfree.symm.trans hs
    | within hb hr =>
        obtain ⟨j, hj⟩ := List.getElem?_of_mem hb
        obtain ⟨hlt, -⟩ := List.getElem?_eq_some_iff.mp hj
        obtain ⟨m, r, hm, hsent, hended⟩ := hr.places hevents
        have hlen : (events before).length = before.length := List.length_map _
        refine ⟨j, m, r, ?_, hlen ▸ hlt, hlen ▸ hm, ?_, hsent, hended⟩
        · rw [hcut, List.take_left]
          exact hs
        · rw [hevents, List.getElem?_append_left hlt]
          exact hj
  · have hcount := hc.received hheld
    rw [owed_of_free hfree] at hcount
    exact hcount

/-- A query that is answered while its sender runs, and whose payload is then not delivered. -/
def unheardQuery : List Deed :=
  [.query (.text "GetMode") .null .null [.respond (.text "NAV")] (.gives (.bool false))]

/-- A query that is answered, and within whose sender the query before is made. -/
def hurriedQuery : List Deed :=
  [.query (.text "GetFuel") .null .null (.respond (.text "80") :: unheardQuery)
    (.gives (.bool true))]

theorem Deed.consumed_returned_hurried :
    Deed.areOnBridge hurriedQuery = true ∧ idleSession.bridge.slot = none ∧
    (∃ m r, (Deed.eventsOfAll hurriedQuery 0 idleSession)[m]? = some (.sent 0 r) ∧
      (Deed.eventsOfAll hurriedQuery 0 idleSession)[m + 1]? =
        some (.ended (some 0) (returned r (.text "80")))) ∧
    (∃ m r, (Deed.eventsOfAll hurriedQuery 0 idleSession)[m]? = some (.sent 1 r) ∧
      (Deed.eventsOfAll hurriedQuery 0 idleSession)[m + 1]? =
        some (.ended (some 1) (returned r (.text "NAV")))) ∧
    lost (Deed.historyOfAll hurriedQuery 0 idleSession) = 1 ∧
    ((Deed.runAll hurriedQuery 0).run idleSession).2.bridge.responsesReceived = 1 := by
  obtain ⟨hgoes, hcount⟩ := Deed.consumed_returned hurriedQuery rfl 0 idleSession rfl
  have hlost : lost (Deed.historyOfAll hurriedQuery 0 idleSession) = 1 := rfl
  have htaken : taken (Deed.eventsOfAll hurriedQuery 0 idleSession) = 2 := rfl
  rw [hlost, htaken] at hcount
  refine ⟨rfl, rfl, ?_, ?_, hlost, Nat.succ.inj hcount⟩
  · obtain ⟨-, t, j, m, r, ht, -, -, -, hm, hend⟩ := hgoes 1 (.text "80") rfl
    obtain rfl : 0 = t := Option.some.inj ht
    exact ⟨m, r, hm, hend⟩
  · obtain ⟨-, t, j, m, r, ht, -, -, -, hm, hend⟩ := hgoes 3 (.text "NAV") rfl
    obtain rfl : 1 = t := Option.some.inj ht
    exact ⟨m, r, hm, hend⟩

/-- A response can be taken whose call returns nothing and does not count it. -/
theorem Deed.consumed_unheard :
    Deed.areOnBridge unheardQuery = true ∧ idleSession.bridge.slot = none ∧
    (Deed.eventsOfAll unheardQuery 0 idleSession)[1]? =
      some (.delivered (.text "NAV") (.ok true)) ∧
    (idleSession.bridge.after
      ((Deed.historyOfAll unheardQuery 0 idleSession).take 1)).slot = some 0 ∧
    (Deed.eventsOfAll unheardQuery 0 idleSession)[3]? = some (.ended (some 0) (.ok .null)) ∧
    .ended (some 0) (.ok (.text "NAV")) ∉ Deed.eventsOfAll unheardQuery 0 idleSession ∧
    ((Deed.runAll unheardQuery 0).run idleSession).2.bridge.isAwaiting = false ∧
    ((Deed.runAll unheardQuery 0).run idleSession).2.bridge.responsesReceived ≠
      taken (Deed.eventsOfAll unheardQuery 0 idleSession) := by
  have hevents : Deed.eventsOfAll unheardQuery 0 idleSession =
      [.reserved 0, .delivered (.text "NAV") (.ok true), .sent 0 (.ok (.bool false)),
        .ended (some 0) (.ok .null)] := rfl
  refine ⟨rfl, rfl, rfl, rfl, rfl, ?_, rfl, nofun⟩
  rw [hevents]
  simp

end Cockpit
