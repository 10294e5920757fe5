import Cockpit.Bridge

/-!
# Courses of a bridge

A *history* lists what happened on a bridge in order, each event with the bridge
right after it.

*Courses.*  `Bridge.Course b h c` says that the history `h` takes the bridge `b`
to `c`.  It follows the query calls.  A call that got the slot encloses all that
its sender does, and other events follow one another.  So a call can hold further
calls, to any depth.

*Tickets.*  A ticket that does not hold the slot never holds it again, and its
fate stays what it is (`Course.frozen`).  A ticket that holds the slot loses it to
the first response that is set, or to the first closing (`Course.held`).  The call of
a ticket ends at most once (`Course.ends_once`).
-/

namespace Cockpit.Bridge

/-! ## Histories -/

/-- Something that happens on a bridge. -/
inductive Event where
  /-- A query call got the slot. -/
  | reserved (t : Ticket)
  /-- A response arrived.  Whoever brought it was told whether it was taken. -/
  | delivered (response : Value) (taken : Except Fault Bool)
  | shut
  | reopened
  /-- The sender of a query ended. -/
  | sent (t : Ticket) (result : Except Fault Value)
  /-- A query call ended.  It has a ticket if it got the slot. -/
  | ended (t : Option Ticket) (outcome : Except Fault Value)

namespace Event

/-- Whether an event leaves the slot to whom it belongs.  A query that ends does. -/
def isQuiet : Event → Bool
  | .reserved _ => false
  | .delivered r _ => !r.isSet
  | .shut => false
  | .reopened => true
  | .sent _ _ => true
  | .ended _ _ => true

/-- The ticket whose call ends with an event. -/
def endedTicket : Event → Option Ticket
  | .ended t _ => t
  | _ => none

end Event

/-- An event with the bridge right after it. -/
structure Moment where
  event : Event
  bridge : Bridge

/-- The events of a history. -/
abbrev events (h : List Moment) : List Event := h.map Moment.event

/-! ## Courses -/

/-- Whether a payload counts as sent, by the end of its sender. -/
def sentBy : Except Fault Value → Except Fault Bool
  | .ok v => .ok v.isSet
  | .error f => if f.isTransport then .ok false else .error f

/-- What an event does that does not happen to a call with a ticket. -/
inductive Turn : Bridge → Event → Bridge → Prop where
  | unset {b : Bridge} {r : Value} (hr : r.isSet = false) :
      Turn b (.delivered r (.ok false)) b
  | answers {b : Bridge} {r : Value} {t : Ticket} (hr : r.isSet = true) (hs : b.slot = some t) :
      Turn b (.delivered r (.ok true)) (b.settle t (.answered r))
  | stray {b : Bridge} {r : Value} {taken : Except Fault Bool} (hr : r.isSet = true)
      (hs : b.slot = none) (ht : taken ≠ .ok true) : Turn b (.delivered r taken) b.countStray
  | cancels {b : Bridge} {t : Ticket} (hs : b.slot = some t) :
      Turn b .shut (b.close.settle t .cancelled)
  | shut {b : Bridge} (hs : b.slot = none) : Turn b .shut b.close
  | reopened {b : Bridge} : Turn b .reopened b.reopen
  | refused {b : Bridge} {o : Except Fault Value} (ho : ∀ v, o = .ok v → v = .null) :
      Turn b (.ended none o) b

/-- How a call ends whose sender ended with `r`: its outcome, and the bridge before
the ticket is given back. -/
inductive Finish (t : Ticket) (r : Except Fault Value) (b : Bridge) :
    Except Fault Value → Bridge → Prop where
  | answered {v : Value} (hr : sentBy r = .ok true) (hf : b.fate t = .answered v) :
      Finish t r b (.ok v) b.countSent.countReceived
  | abandoned (hr : sentBy r = .ok true) (hf : b.fate t = .cancelled) :
      Finish t r b (.ok .null) b.countSent
  | timedOut {o : Except Fault Value} (hr : sentBy r = .ok true) (hf : b.fate t = .pending)
      (ho : ∀ v, o = .ok v → v = .null) : Finish t r b o b.countSent.countTimeout
  | overlong {f : Fault} (hr : sentBy r = .ok true) (hf : b.fate t = .pending) :
      Finish t r b (.error f) b.countSent
  | failed (hr : sentBy r = .ok false) : Finish t r b (.ok .null) b.countFailure
  | broken {f : Fault} (hr : sentBy r = .error f) : Finish t r b (.error f) b

/-- The history of a call that took a ticket: what its sender did, how the sender
ended, and the outcome. -/
def callHistory (b : Bridge) (h : List Moment) (c : Bridge) (r o : Except Fault Value)
    (d : Bridge) : List Moment :=
  ⟨.reserved b.fates.length, b.take⟩ :: h ++
    [⟨.sent b.fates.length r, c⟩, ⟨.ended (some b.fates.length) o, d⟩]

theorem events_callHistory (b : Bridge) (h : List Moment) (c : Bridge)
    (r o : Except Fault Value) (d : Bridge) :
    events (callHistory b h c r o d) = .reserved b.fates.length :: (events h ++
      [.sent b.fates.length r, .ended (some b.fates.length) o]) := by
  simp [callHistory, events]

/-- A history takes one bridge to another. -/
inductive Course : Bridge → List Moment → Bridge → Prop where
  | nil {b : Bridge} : Course b [] b
  | turn {b c : Bridge} {e : Event} (h : Turn b e c) : Course b [⟨e, c⟩] c
  | append {a b c : Bridge} {g h : List Moment} (hg : Course a g b) (hh : Course b h c) :
      Course a (g ++ h) c
  | call {b c d : Bridge} {h : List Moment} {r o : Except Fault Value}
      (hopen : b.closed = false) (hfree : b.slot = none) (hh : Course b.take h c)
      (hd : Finish b.fates.length r c o d) :
      Course b (callHistory b h c r o (d.release b.fates.length)) (d.release b.fates.length)
  /-- A call whose stream cannot be written has no sender. -/
  | unsent {b : Bridge} {f : Fault} (hopen : b.closed = false) (hfree : b.slot = none) :
      Course b [⟨.reserved b.fates.length, b.take⟩,
        ⟨.ended (some b.fates.length) (.error f), b.take.release b.fates.length⟩]
        (b.take.release b.fates.length)

/-! ## Tickets -/

section Tickets

variable {a b c d : Bridge} {e : Event} {g h : List Moment} {t u : Ticket}
  {r o : Except Fault Value}

@[simp] theorem length_take (b : Bridge) : b.take.fates.length = b.fates.length + 1 := by
  simp [take]

@[simp] theorem length_settle (t : Ticket) (f : Fate) (b : Bridge) :
    (b.settle t f).fates.length = b.fates.length := by
  simp [settle]

@[simp] theorem fates_release (t : Ticket) (b : Bridge) : (b.release t).fates = b.fates := by
  unfold release
  split <;> rfl

theorem closed_release (t : Ticket) (b : Bridge) : (b.release t).closed = b.closed := by
  unfold release
  split <;> rfl

/-- A ticket that is given back leaves the slot to nobody if no other one held it. -/
theorem slot_release (h : b.slot = some t ∨ b.slot = none) : (b.release t).slot = none := by
  unfold release
  split
  · rfl
  · exact h.resolve_left (by assumption)

/-- A slot that is not held stays so when a ticket is given back. -/
theorem slot_release_of_ne (h : b.slot ≠ some t) : (b.release u).slot ≠ some t := by
  unfold release
  split
  · exact nofun
  · exact h

theorem Finish.slot_eq (h : Finish t r b o c) : c.slot = b.slot := by
  cases h <;> rfl

/-- A query that ends does not close the bridge. -/
theorem Finish.closed_eq (h : Finish t r b o c) : c.closed = b.closed := by
  cases h <;> rfl

theorem Finish.fates_eq (h : Finish t r b o c) : c.fates = b.fates := by
  cases h <;> rfl

/-- The fates depend on nothing but the record of them. -/
theorem fate_congr (h : c.fates = b.fates) (t : Ticket) : c.fate t = b.fate t := by
  rw [fate, h, fate]

theorem Turn.length_eq (h : Turn b e c) : c.fates.length = b.fates.length := by
  cases h with
  | answers _ _ => exact length_settle _ _ b
  | cancels _ => exact length_settle _ _ b.close
  | unset _ => rfl
  | stray _ _ _ => rfl
  | shut _ => rfl
  | reopened => rfl
  | refused _ => rfl

/-- No ticket is taken back. -/
theorem Course.grows (h : Course a g b) : a.fates.length ≤ b.fates.length := by
  induction h with
  | nil => exact Nat.le_refl _
  | turn h => exact Nat.le_of_eq h.length_eq.symm
  | append _ _ ihg ihh => exact Nat.le_trans ihg ihh
  | call _ _ _ hd ih =>
      rw [fates_release, hd.fates_eq]
      rw [length_take] at ih
      exact Nat.le_of_succ_le ih
  | unsent _ _ =>
      rw [fates_release, length_take]
      exact Nat.le_succ _

/-- An event outside of calls does not touch a ticket that does not hold the slot. -/
theorem Turn.frozen (h : Turn b e c) (ht : b.slot ≠ some t) :
    c.slot ≠ some t ∧ c.fate t = b.fate t := by
  cases h with
  | @answers _ u _ hs =>
      have hne : t ≠ u := fun hu => ht (hu ▸ hs)
      exact ⟨nofun, fate_settle_of_ne hne _ b⟩
  | @cancels u hs =>
      have hne : t ≠ u := fun hu => ht (hu ▸ hs)
      exact ⟨nofun, fate_settle_of_ne hne _ b.close⟩
  | unset _ => exact ⟨ht, rfl⟩
  | stray _ _ _ => exact ⟨ht, rfl⟩
  | shut _ => exact ⟨ht, rfl⟩
  | reopened => exact ⟨ht, rfl⟩
  | refused _ => exact ⟨ht, rfl⟩

/-- The next ticket is none that was given out before. -/
theorem slot_take_ne (ht : t < b.fates.length) : b.take.slot ≠ some t := by
  intro h
  rw [slot_take] at h
  exact Nat.ne_of_lt ht (Option.some.inj h).symm

/-- A ticket that does not hold the slot never gets it again, and its fate stays. -/
theorem Course.frozen (h : Course a g b) (hlt : t < a.fates.length) (ht : a.slot ≠ some t) :
    b.slot ≠ some t ∧ b.fate t = a.fate t := by
  induction h with
  | nil => exact ⟨ht, rfl⟩
  | turn h => exact h.frozen ht
  | append hg _ ihg ihh =>
      obtain ⟨hs, hf⟩ := ihg hlt ht
      obtain ⟨hs', hf'⟩ := ihh (Nat.lt_of_lt_of_le hlt hg.grows) hs
      exact ⟨hs', hf'.trans hf⟩
  | @call a c d _ _ _ _ _ _ hd ih =>
      have hlt' : t < a.take.fates.length := by
        rw [length_take]
        exact Nat.lt_succ_of_lt hlt
      obtain ⟨hs, hf⟩ := ih hlt' (slot_take_ne hlt)
      refine ⟨slot_release_of_ne ?_, ?_⟩
      · rw [hd.slot_eq]
        exact hs
      · rw [fate_release, fate_congr hd.fates_eq, hf, fate_take_of_lt hlt]
  | @unsent a _ _ _ =>
      refine ⟨slot_release_of_ne (slot_take_ne hlt), ?_⟩
      rw [fate_release, fate_take_of_lt hlt]

end Tickets

/-! ## Holding the slot -/

section Holding

variable {a b c : Bridge} {e : Event} {g h : List Moment} {t : Ticket}

/-- A history was quiet throughout. -/
def Quiet (es : List Event) : Prop := ∀ e ∈ es, e.isQuiet = true

theorem Quiet.append {es fs : List Event} (he : Quiet es) (hf : Quiet fs) : Quiet (es ++ fs) := by
  intro e h
  rcases List.mem_append.mp h with h | h
  · exact he e h
  · exact hf e h

/-- What becomes of the ticket that holds the slot while a history leads from one bridge
to another: it still holds it and all was quiet, or the first response that was set
answered it, or the first closing gave it up. -/
inductive Kept (t : Ticket) (b : Bridge) (es : List Event) (c : Bridge) : Prop where
  | still (hs : c.slot = some t) (hf : c.fate t = b.fate t) (hq : Quiet es)
  | answered {waiting later : List Event} {v : Value} (hs : c.slot ≠ some t)
      (hf : c.fate t = .answered v)
      (he : es = waiting ++ .delivered v (.ok true) :: later) (hv : v.isSet = true)
      (hq : Quiet waiting)
  | cancelled {waiting later : List Event} (hs : c.slot ≠ some t) (hf : c.fate t = .cancelled)
      (he : es = waiting ++ .shut :: later) (hq : Quiet waiting)

/-- Without a response and a closing, the slot stays with its ticket. -/
theorem Turn.still (h : Turn b e c) (he : e.isQuiet = true) :
    c.slot = b.slot ∧ c.fates = b.fates := by
  cases h with
  | unset _ => exact ⟨rfl, rfl⟩
  | answers hr _ =>
      rw [Event.isQuiet, hr] at he
      cases he
  | stray hr _ _ =>
      rw [Event.isQuiet, hr] at he
      cases he
  | cancels _ => cases he
  | shut _ => cases he
  | reopened => exact ⟨rfl, rfl⟩
  | refused _ => exact ⟨rfl, rfl⟩

theorem Turn.held (h : Turn b e c) (hlt : t < b.fates.length) (ht : b.slot = some t) :
    Kept t b [e] c := by
  by_cases he : e.isQuiet = true
  · obtain ⟨hs, hf⟩ := h.still he
    refine .still (hs.trans ht) (fate_congr hf t) ?_
    intro x hx
    cases List.mem_singleton.mp hx
    exact he
  · cases h with
    | @answers v u hr hs =>
        obtain rfl : u = t := Option.some.inj (hs.symm.trans ht)
        have hnil : Quiet [] := nofun
        exact .answered nofun (fate_settle_self hlt _) (List.nil_append _).symm hr hnil
    | @cancels u hs =>
        obtain rfl : u = t := Option.some.inj (hs.symm.trans ht)
        have hlt' : u < b.close.fates.length := hlt
        have hnil : Quiet [] := nofun
        exact .cancelled nofun (fate_settle_self hlt' _) (List.nil_append _).symm hnil
    | unset hr =>
        rw [Event.isQuiet, hr] at he
        exact absurd rfl he
    | stray _ hs _ =>
        rw [hs] at ht
        cases ht
    | shut hs =>
        rw [hs] at ht
        cases ht
    | reopened => exact absurd rfl he
    | refused _ => exact absurd rfl he

/-- The ticket that holds the slot keeps it until a response or a closing comes. -/
theorem Course.held (h : Course a g b) (hlt : t < a.fates.length) (ht : a.slot = some t) :
    Kept t a (events g) b := by
  induction h with
  | nil =>
      have hnil : Quiet [] := nofun
      exact .still ht rfl hnil
  | turn h => exact h.held hlt ht
  | @append a b c g h hg hh ihg ihh =>
      have hlt' := Nat.lt_of_lt_of_le hlt hg.grows
      rw [events, List.map_append]
      cases ihg hlt ht with
      | still hs hf hq =>
          cases ihh hlt' hs with
          | still hs' hf' hq' => exact .still hs' (hf'.trans hf) (hq.append hq')
          | @answered waiting later v hs' hf' he hv hq' =>
              have he' : events g ++ events h =
                  events g ++ waiting ++ .delivered v (.ok true) :: later := by
                rw [he, List.append_assoc]
              exact .answered hs' hf' he' hv (hq.append hq')
          | @cancelled waiting later hs' hf' he hq' =>
              have he' : events g ++ events h = events g ++ waiting ++ .shut :: later := by
                rw [he, List.append_assoc]
              exact .cancelled hs' hf' he' (hq.append hq')
      | @answered waiting later v hs hf he hv hq =>
          obtain ⟨hs', hf'⟩ := hh.frozen hlt' hs
          have he' : events g ++ events h =
              waiting ++ .delivered v (.ok true) :: (later ++ events h) := by
            rw [he, List.append_assoc, List.cons_append]
          exact .answered hs' (hf'.trans hf) he' hv hq
      | @cancelled waiting later hs hf he hq =>
          obtain ⟨hs', hf'⟩ := hh.frozen hlt' hs
          have he' : events g ++ events h = waiting ++ .shut :: (later ++ events h) := by
            rw [he, List.append_assoc, List.cons_append]
          exact .cancelled hs' (hf'.trans hf) he' hq
  -- A call cannot get the slot, which is not free.
  | call _ hfree _ _ _ =>
      rw [hfree] at ht
      cases ht
  | unsent _ hfree =>
      rw [hfree] at ht
      cases ht

end Holding

/-! ## Each ticket ends once -/

section Ends

variable {b c : Bridge} {g : List Moment}

/-- The tickets of calls that end in a history were given out in it. -/
theorem Course.ended_within (h : Course b g c) :
    ∀ e ∈ events g, ∀ t, e.endedTicket = some t → b.fates.length ≤ t ∧ t < c.fates.length := by
  induction h with
  | nil => exact nofun
  | turn h =>
      intro e he t ht
      cases List.mem_singleton.mp he
      cases h <;> cases ht
  | append hg hh ihg ihh =>
      intro e he t ht
      rw [events, List.map_append] at he
      rcases List.mem_append.mp he with he | he
      · obtain ⟨hle, hlt⟩ := ihg e he t ht
        exact ⟨hle, Nat.lt_of_lt_of_le hlt hh.grows⟩
      · obtain ⟨hle, hlt⟩ := ihh e he t ht
        exact ⟨Nat.le_trans hg.grows hle, hlt⟩
  | @call b c d h r o _ _ hh hd ih =>
      intro e he t ht
      have hgrows := hh.grows
      rw [length_take] at hgrows ih
      rw [fates_release, hd.fates_eq]
      rw [events_callHistory] at he
      rcases List.mem_cons.mp he with rfl | he
      · cases ht
      · rcases List.mem_append.mp he with he | he
        · obtain ⟨hle, hlt⟩ := ih e he t ht
          exact ⟨Nat.le_of_succ_le hle, hlt⟩
        · rcases List.mem_cons.mp he with rfl | he
          · cases ht
          · cases List.mem_singleton.mp he
            cases ht
            exact ⟨Nat.le_refl _, hgrows⟩
  | unsent _ _ =>
      intro e he t ht
      rw [fates_release, length_take]
      rcases List.mem_cons.mp he with rfl | he
      · cases ht
      · cases List.mem_singleton.mp he
        cases ht
        exact ⟨Nat.le_refl _, Nat.lt_succ_self _⟩

/-- Two events do not end one ticket. -/
def Apart (e f : Event) : Prop := ∀ t, e.endedTicket = some t → f.endedTicket ≠ some t

theorem Course.ends_once (h : Course b g c) : (events g).Pairwise Apart := by
  induction h with
  | nil => exact .nil
  | turn _ => exact List.pairwise_singleton _ _
  | append hg hh ihg ihh =>
      rw [events, List.map_append]
      refine List.pairwise_append.mpr ⟨ihg, ihh, ?_⟩
      intro e he f hf t het hft
      have hlt := (hg.ended_within e he t het).2
      have hle := (hh.ended_within f hf t hft).1
      exact Nat.not_lt_of_le hle hlt
  | @call b c d h r o _ _ hh hd ih =>
      rw [events_callHistory]
      refine List.pairwise_cons.mpr ⟨fun f _ => nofun, ?_⟩
      refine List.pairwise_append.mpr ⟨ih, ?_, ?_⟩
      · exact List.pairwise_pair.mpr nofun
      · intro e he f hf t het hft
        have hle := (hh.ended_within e he t het).1
        rw [length_take] at hle
        rcases List.mem_cons.mp hf with rfl | hf
        · cases hft
        · cases List.mem_singleton.mp hf
          cases hft
          exact Nat.not_succ_le_self _ hle
  | unsent _ _ => exact List.pairwise_pair.mpr nofun

end Ends

end Cockpit.Bridge
