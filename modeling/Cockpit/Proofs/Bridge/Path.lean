import Cockpit.Proofs.Bridge.Course

/-!
# Courses event by event

A course follows the query calls, and a call encloses what its sender does.  A *path*
is the same history flat: every event is a `Step` from the bridge right before it.
`Course.path` flattens a course.

`Tended es b` says that after the events `es` the slot of `b` is empty or belongs to a
call that has begun, has not ended, and is neither answered nor given up.  Every step
keeps this, and so does every path (`Path.tended`).

A step that ends a call empties the slot only if the call held it (`Step.slot_ended`).
-/

namespace Cockpit.Bridge

/-! ## Steps -/

/-- What one event does to a bridge. -/
inductive Step : Bridge → Event → Bridge → Prop where
  | turn {b c : Bridge} {e : Event} (h : Turn b e c) : Step b e c
  | reserved {b : Bridge} (hopen : b.closed = false) (hfree : b.slot = none) :
      Step b (.reserved b.fates.length) b.take
  | sent {b : Bridge} {t : Ticket} {r : Except Fault Value} : Step b (.sent t r) b
  /-- A call counts how it ended, and gives its ticket back. -/
  | ended {b d : Bridge} {t : Ticket} {o : Except Fault Value} (ht : t < b.fates.length)
      (hs : d.slot = b.slot) (hf : d.fates = b.fates) :
      Step b (.ended (some t) o) (d.release t)

/-- A history leads from one bridge to another, each event by a step. -/
inductive Path (b : Bridge) : List Moment → Bridge → Prop where
  | nil : Path b [] b
  | snoc {h : List Moment} {c : Bridge} {m : Moment} (hp : Path b h c)
      (hm : Step c m.event m.bridge) : Path b (h ++ [m]) m.bridge

/-- The bridge after a history. -/
def after (b : Bridge) (h : List Moment) : Bridge := (h.getLast?.map Moment.bridge).getD b

variable {a b c d : Bridge} {e : Event} {es : List Event} {g h : List Moment} {t u : Ticket}

@[simp] theorem after_nil (b : Bridge) : b.after [] = b := rfl

@[simp] theorem after_concat (b : Bridge) (h : List Moment) (m : Moment) :
    b.after (h ++ [m]) = m.bridge := by
  rw [after, List.getLast?_concat]
  rfl

theorem Path.after_eq (h : Path b g c) : b.after g = c := by
  cases h with
  | nil => rfl
  | snoc _ _ => exact after_concat b _ _

theorem Path.append (hg : Path a g b) (hh : Path b h c) : Path a (g ++ h) c := by
  induction hh with
  | nil =>
      rw [List.append_nil]
      exact hg
  | snoc _ hm ih =>
      rw [← List.append_assoc]
      exact ih.snoc hm

theorem Path.single {m : Moment} (hm : Step b m.event m.bridge) : Path b [m] m.bridge :=
  Path.nil.snoc hm

/-- The last event of a path is a step from the bridge after the others. -/
theorem Path.last {m : Moment} (hp : Path b (h ++ [m]) c) : Step (b.after h) m.event c := by
  generalize hg : h ++ [m] = g at hp
  cases hp with
  | nil => exact absurd hg (by simp)
  | @snoc g' c' m' hp hm =>
      obtain ⟨rfl, hm'⟩ := List.append_inj' hg rfl
      cases List.singleton_inj.mp hm'
      rw [hp.after_eq]
      exact hm

/-- Every part of a path up to some moment is a path. -/
theorem Path.of_prefix (hp : Path b g c) (h : List Moment) (hh : h <+: g) :
    Path b h (b.after h) := by
  induction hp with
  | nil =>
      rw [List.prefix_nil.mp hh]
      exact .nil
  | @snoc g c m hp hm ih =>
      rcases List.prefix_concat_iff.mp hh with rfl | hh
      · rw [after_concat]
        exact hp.snoc hm
      · exact ih hh

/-- A course is a path: each event of it is a step. -/
theorem Course.path (h : Course b g c) : Path b g c := by
  induction h with
  | nil => exact .nil
  | turn h => exact .single (.turn h)
  | append _ _ ihg ihh => exact ihg.append ihh
  | @call b c d h r o hopen hfree hh hd ih =>
      have hgrows := hh.grows
      rw [length_take] at hgrows
      have hbegin : Path b [⟨.reserved b.fates.length, b.take⟩] b.take :=
        .single (.reserved hopen hfree)
      have hsent : Path c [⟨.sent b.fates.length r, c⟩] c := .single .sent
      have hend : Path c [⟨.sent b.fates.length r, c⟩,
          ⟨.ended (some b.fates.length) o, d.release b.fates.length⟩] _ :=
        hsent.snoc (.ended hgrows hd.slot_eq hd.fates_eq)
      exact (hbegin.append ih).append hend
  | @unsent b f hopen hfree =>
      have hlt : b.fates.length < b.take.fates.length := by
        rw [length_take]
        exact Nat.lt_succ_self _
      have hbegin : Path b [⟨.reserved b.fates.length, b.take⟩] b.take :=
        .single (.reserved hopen hfree)
      exact hbegin.snoc (.ended hlt rfl rfl)

/-! ## The holder of the slot -/

/-- A call got its ticket in a history, and has not ended in it. -/
def InProgress (es : List Event) (t : Ticket) : Prop :=
  .reserved t ∈ es ∧ ∀ e ∈ es, e.endedTicket ≠ some t

theorem InProgress.concat (h : InProgress es t) (he : e.endedTicket ≠ some t) :
    InProgress (es ++ [e]) t := by
  refine ⟨List.mem_append_left _ h.1, fun x hx => ?_⟩
  rcases List.mem_append.mp hx with hx | hx
  · exact h.2 x hx
  · cases List.mem_singleton.mp hx
    exact he

/-- After some events the slot of a bridge belongs to nobody, or to a call that is in
progress and neither answered nor given up. -/
structure Tended (es : List Event) (b : Bridge) : Prop where
  holder : ∀ t, b.slot = some t → b.fate t = .pending ∧ InProgress es t
  /-- Only calls that got a ticket end with one. -/
  given : ∀ e ∈ es, ∀ t, e.endedTicket = some t → t < b.fates.length

theorem tended_nil (h : b.slot = none) : Tended [] b where
  holder t ht := by
    rw [h] at ht
    cases ht
  given := nofun

/-- An event outside of calls ends no call that got a ticket. -/
theorem Turn.endedTicket_eq (h : Turn b e c) : e.endedTicket = none := by
  cases h <;> rfl

/-- After an event outside of calls, only who held the slot before holds it, and waits
as before. -/
theorem Turn.holds (h : Turn b e c) (ht : c.slot = some t) :
    b.slot = some t ∧ c.fate t = b.fate t := by
  cases h with
  | answers _ _ => cases ht
  | cancels _ => cases ht
  | unset _ => exact ⟨ht, rfl⟩
  | stray _ _ _ => exact ⟨ht, rfl⟩
  | shut _ => exact ⟨ht, rfl⟩
  | reopened => exact ⟨ht, rfl⟩
  | refused _ => exact ⟨ht, rfl⟩

/-- Who holds the slot after a ticket was given back held it before. -/
theorem slot_of_release (h : (b.release t).slot = some u) : b.slot = some u := by
  unfold release at h
  split at h
  · cases h
  · exact h

/-- Every step leaves the slot to nobody or to a call in progress that waits. -/
theorem Step.tended (hs : Step b e c) (h : Tended es b) : Tended (es ++ [e]) c := by
  have given (hlen : b.fates.length ≤ c.fates.length)
      (he : ∀ t, e.endedTicket = some t → t < c.fates.length) :
      ∀ x ∈ es ++ [e], ∀ t, x.endedTicket = some t → t < c.fates.length := by
    intro x hx t ht
    rcases List.mem_append.mp hx with hx | hx
    · exact Nat.lt_of_lt_of_le (h.given x hx t ht) hlen
    · cases List.mem_singleton.mp hx
      exact he t ht
  cases hs with
  | turn hturn =>
      have hend := hturn.endedTicket_eq
      refine ⟨fun t ht => ?_, given (Nat.le_of_eq hturn.length_eq.symm) fun t ht => ?_⟩
      · obtain ⟨hs, hf⟩ := hturn.holds ht
        obtain ⟨hp, hi⟩ := h.holder t hs
        refine ⟨hf.trans hp, hi.concat ?_⟩
        rw [hend]
        exact nofun
      · rw [hend] at ht
        cases ht
  | reserved _ _ =>
      refine ⟨fun t ht => ?_, given (by rw [length_take]; exact Nat.le_succ _) nofun⟩
      obtain rfl : b.fates.length = t := Option.some.inj ht
      refine ⟨fate_take_self b, List.mem_append_right _ List.mem_cons_self, fun x hx => ?_⟩
      rcases List.mem_append.mp hx with hx | hx
      -- The ticket is new, so no call has ended with it.
      · exact fun hend => Nat.lt_irrefl _ (h.given x hx _ hend)
      · cases List.mem_singleton.mp hx
        exact nofun
  | sent =>
      refine ⟨fun t ht => ?_, given (Nat.le_refl _) nofun⟩
      obtain ⟨hp, hi⟩ := h.holder t ht
      exact ⟨hp, hi.concat nofun⟩
  | @ended d n o hlt hslot hfates =>
      have hlen : (d.release n).fates.length = b.fates.length := by
        rw [fates_release, hfates]
      refine ⟨fun t ht => ?_, given (Nat.le_of_eq hlen.symm) fun t ht => ?_⟩
      · have hne : n ≠ t := fun he => slot_release_ne n d (he ▸ ht)
        obtain ⟨hp, hi⟩ := h.holder t (hslot ▸ slot_of_release ht)
        refine ⟨?_, hi.concat fun he => hne (Option.some.inj he)⟩
        rw [fate_release, fate_congr hfates, hp]
      · rw [hlen, ← Option.some.inj ht]
        exact hlt

/-- So does every path. -/
theorem Path.tended (hp : Path b g c) (h : Tended [] b) : Tended (events g) c := by
  induction hp with
  | nil => exact h
  | @snoc g c m _ hm ih =>
      rw [events, List.map_append]
      exact hm.tended ih

/-- A call that ends empties the slot if it holds it, and leaves it alone if not. -/
theorem Step.slot_ended {t : Option Ticket} {o : Except Fault Value}
    (h : Step b (.ended t o) c) : c.slot = if b.slot = t then none else b.slot := by
  cases h with
  | turn h =>
      cases h with
      | refused _ =>
          split
          · assumption
          · rfl
  | @ended d n _ _ hs _ =>
      rw [release, ← hs]
      split
      · rfl
      · rfl

end Cockpit.Bridge
