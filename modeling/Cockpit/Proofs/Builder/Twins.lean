import Cockpit.Proofs.Builder.Resting
import Cockpit.Proofs.Builder.Telling

/-!
# Runs that go the same way

A program is run in two workshops that share some builders.  Other builders may have been made in
either of them since, and new ones are made in the run, so a new builder has one place in the first
workshop and another one in the second.  `Pairing.place` takes the one to the other.

A builder is *owned* in a run if calls on it are in progress or if it was made in the run, and
owned builders are the same in both workshops.  The others may differ in their streams and their
open conditions.  Splicing a builder owns it while it builds: it is emptied first, it gets the open
conditions of the one that takes its commands, and it is as strict in both workshops if it was so
before or if the taker is strict.

`Op.Echoes` says that two operations end in the same way and leave the workshops twins.
`Program.run_echoes` says it of a program that goes over only to owned builders, and
`Builder.build_echoes` of building.
-/

namespace Cockpit

open Op

namespace Workshop

/-! ## Places of builders -/

/-- Two workshops that share some builders. -/
structure Pairing where
  first : Workshop
  second : Workshop
  /-- How many builders they share. -/
  shared : Nat
  /-- Shared builders that need not be equally strict. -/
  aliens : List BuilderId
  /-- Whether builders build inside one another to the same depth in both. -/
  level : Bool
  le_first : shared ≤ first.benches.length
  le_second : shared ≤ second.benches.length

namespace Pairing

variable (p : Pairing) {i j : Nat}

/-- Where the builders begin that are made in the first workshop. -/
def made : Nat := p.first.benches.length

/-- Where the builders begin that are made in the second workshop. -/
def made' : Nat := p.second.benches.length

/-- The place in the second workshop of a builder of the first one. -/
def place (i : Nat) : Nat := if i < p.shared then i else i - p.made + p.made'

/-- Whether a builder of the first workshop has a place in the second one. -/
def Maps (i : Nat) : Prop := i < p.shared ∨ p.made ≤ i

/-- Whether calls on a builder are in progress, or it was made in the run. -/
def Owns (busy : List BuilderId) (i : Nat) : Prop := i ∈ busy ∨ p.made ≤ i

variable {p}

theorem le_made : p.shared ≤ p.made := p.le_first

theorem le_made' : p.shared ≤ p.made' := p.le_second

theorem place_of_shared (h : i < p.shared) : p.place i = i := if_pos h

theorem place_of_made (h : p.made ≤ i) : p.place i = i - p.made + p.made' :=
  if_neg (Nat.not_lt_of_le (Nat.le_trans p.le_made h))

theorem place_injective (hi : p.Maps i) (hj : p.Maps j) (h : p.place i = p.place j) : i = j := by
  have hm' := p.le_made'
  rcases hi with hi | hi <;> rcases hj with hj | hj
  · rwa [place_of_shared hi, place_of_shared hj] at h
  · rw [place_of_shared hi, place_of_made hj] at h
    omega
  · rw [place_of_made hi, place_of_shared hj] at h
    omega
  · rw [place_of_made hi, place_of_made hj] at h
    omega

end Pairing

/-- Whether a touch goes over to builders only while calls on them are in progress or if they
were made in the run, and has others of some builders spliced only by a strict one. -/
def Touch.StaysOut (aliens : List BuilderId) (made : Nat) : Touch → Prop
  | .reaches busy other => other ∈ busy ∨ made ≤ other
  | .splices busy other strict => other ∈ aliens → strict = true ∨ other ∈ busy ∨ made ≤ other
  | _ => True

instance (aliens : List BuilderId) (made : Nat) :
    DecidablePred (Touch.StaysOut aliens made)
  | .reaches _ _ => inferInstanceAs (Decidable (_ ∨ _))
  | .splices _ _ _ => inferInstanceAs (Decidable (_ → _))
  | .stands _ => isTrue trivial
  | .sets _ => isTrue trivial
  | .tooDeep => isTrue trivial

/-- Whether the touches of a run in the first workshop are such that it goes the same way in the
second one. -/
def Pairing.Admits (p : Pairing) (ts : List Touch) : Prop :=
  ∀ t ∈ ts, t.StaysOut p.aliens p.made ∧ (p.level = true ∨ t.isTooDeep = false)

namespace Pairing

variable {p : Pairing} {ts ss : List Touch} {touch : Touch}

theorem Admits.head (h : p.Admits (touch :: ts)) : touch.StaysOut p.aliens p.made :=
  (h touch List.mem_cons_self).1

theorem Admits.mono (h : p.Admits ts) (hs : ss ⊆ ts) : p.Admits ss := fun t ht => h t (hs ht)

theorem Admits.tail (h : p.Admits (touch :: ts)) : p.Admits ts :=
  h.mono (List.subset_cons_self _ _)

theorem Admits.left (h : p.Admits (ts ++ ss)) : p.Admits ts :=
  h.mono (List.subset_append_left _ _)

theorem Admits.right (h : p.Admits (ts ++ ss)) : p.Admits ss :=
  h.mono (List.subset_append_right _ _)

end Pairing

/-! ## Benches -/

theorem changeBuilder_of_length_le {w : Workshop} {i : Nat} (h : w.benches.length ≤ i)
    (f : Builder → Builder) : w.changeBuilder i f = w := by
  rw [changeBuilder, setBuilder, List.modify_eq_self h]

theorem builder_cleared (i : Nat) (w : Workshop) :
    (w.changeBuilder i Builder.clear).builder i = (w.builder i).clear := by
  by_cases hlt : i < w.benches.length
  · exact builder_changeBuilder_self hlt _
  · have hle := Nat.le_of_not_lt hlt
    rw [changeBuilder_of_length_le hle, builder_of_length_le hle]
    rfl

theorem stream_givenBack (before : Builder) (i : Nat) (w : Workshop) :
    ((w.changeBuilder i (giveBack before)).builder i).stream = (w.builder i).stream := by
  rcases builder_changeBuilder_cases i (giveBack before) w i with he | ⟨-, he⟩
  · rw [he]
  · rw [he]
    rfl

/-- A builder on loan depends on what it was made with, on the open conditions of the one that
takes its commands, and on whether one of the two is strict. -/
theorem lend_eq (taker b : Builder) :
    lend taker b =
      { b.bare with
        openConditions := taker.openConditions
        strict := b.strict || taker.strict } := rfl

/-- Lending is one change, which empties the builder. -/
theorem lent_eq_change (id other : Nat) (w : Workshop) :
    w.lent id other = w.changeBuilder other (lend (w.builder id)) := by
  by_cases hlt : other < w.benches.length
  · have htaker : lend ((w.changeBuilder other Builder.clear).builder id) =
        lend (w.builder id) := by
      rcases builder_changeBuilder_cases other Builder.clear w id with he | ⟨rfl, he⟩
      · rw [he]
      · rw [he]
        rfl
    rw [lent, changeBuilder_changeBuilder hlt, htaker]
    rfl
  · have hle := Nat.le_of_not_lt hlt
    rw [lent, changeBuilder_of_length_le hle, changeBuilder_of_length_le hle]

theorem bench_withBench_of_ne {w : Workshop} {i : Nat} (n : Bench) (h : i ≠ w.benches.length) :
    (w.withBench n).bench i = w.bench i := by
  rcases Nat.lt_or_gt_of_ne h with hlt | hgt
  · rw [bench, withBench, List.getElem?_append_left hlt]
    rfl
  · rw [bench_of_length_le (Nat.le_of_lt hgt), bench_of_length_le]
    rw [withBench, List.length_append]
    exact hgt

/-! ## Twins -/

variable {p : Pairing} {busy more : List BuilderId} {v w t u : Workshop} {id other i : Nat}
  {f g : Builder → Builder}

/-- Whether two workshops differ only in what they had before, and in the streams and the open
conditions of builders that are not owned, some of which need not be equally strict either. -/
structure Twins (p : Pairing) (busy : List BuilderId) (v w : Workshop) : Prop where
  airframe : w.airframe = v.airframe
  names : w.names = v.names
  named : ∀ e ∈ v.names, e.2 < p.shared
  told : ∃ rs, v.journal = p.first.journal.addAll rs ∧ w.journal = p.second.journal.addAll rs
  noted : ∃ ns, v.caught = p.first.caught ++ ns ∧ w.caught = p.second.caught ++ ns
  sizes : ∃ m, v.benches.length = p.made + m ∧ w.benches.length = p.made' + m
  programs : ∀ i, p.Maps i → (w.bench (p.place i)).program = (v.bench i).program
  bare : ∀ i, p.Maps i → (w.builder (p.place i)).bare = (v.builder i).bare
  even : ∀ i, p.Maps i → i ∉ p.aliens → (w.builder (p.place i)).strict = (v.builder i).strict
  owned : ∀ i, p.Maps i → p.Owns busy i → w.builder (p.place i) = v.builder i

namespace Twins

theorem mono (h : Twins p more v w) (hm : busy ⊆ more) : Twins p busy v w :=
  { h with owned := fun i hi ho => h.owned i hi (ho.imp_left fun hin => hm hin) }

/-- Calls on a builder that is owned may begin. -/
theorem enter (h : Twins p busy v w) (ho : p.Owns busy other) :
    Twins p (other :: busy) v w := by
  refine { h with owned := fun i hi hin => h.owned i hi ?_ }
  rcases hin with hin | hmade
  · rcases List.mem_cons.mp hin with rfl | hin
    · exact ho
    · exact Or.inl hin
  · exact Or.inr hmade

theorem lt_iff (h : Twins p busy v w) (hi : p.Maps i) :
    p.place i < w.benches.length ↔ i < v.benches.length := by
  obtain ⟨m, hv, hw⟩ := h.sizes
  have hm := p.le_made
  have hm' := p.le_made'
  rcases hi with hi | hi
  · rw [Pairing.place_of_shared hi]
    omega
  · rw [Pairing.place_of_made hi]
    omega

/-- A change that makes a builder that is equally bare, equally strict if it has to be, and the
same if it is owned from then on. -/
theorem change (h : Twins p more v w) (hi : p.Maps i)
    (hbare : (g (w.builder (p.place i))).bare = (f (v.builder i)).bare)
    (heven : i ∉ p.aliens → (g (w.builder (p.place i))).strict = (f (v.builder i)).strict)
    (hown : p.Owns busy i → g (w.builder (p.place i)) = f (v.builder i))
    (hbusy : ∀ j ∈ busy, j ≠ i → j ∈ more) :
    Twins p busy (v.changeBuilder i f) (w.changeBuilder (p.place i) g) := by
  have hcases {j : Nat} (hj : p.Maps j) :
      (j = i ∧ (v.changeBuilder i f).builder j = f (v.builder i) ∧
          (w.changeBuilder (p.place i) g).builder (p.place j) = g (w.builder (p.place i))) ∨
        ((j = i → w.builder (p.place j) = v.builder j) ∧
          (v.changeBuilder i f).builder j = v.builder j ∧
          (w.changeBuilder (p.place i) g).builder (p.place j) = w.builder (p.place j)) := by
    by_cases hne : j = i
    · subst hne
      by_cases hlt : j < v.benches.length
      · have hlt' := (h.lt_iff hj).mpr hlt
        exact Or.inl ⟨rfl, builder_changeBuilder_self hlt f, builder_changeBuilder_self hlt' g⟩
      · have hle := Nat.le_of_not_lt hlt
        have hle' := Nat.le_of_not_lt fun hin => hlt ((h.lt_iff hj).mp hin)
        rw [changeBuilder_of_length_le hle, changeBuilder_of_length_le hle']
        rw [builder_of_length_le hle, builder_of_length_le hle']
        exact Or.inr ⟨fun _ => rfl, rfl, rfl⟩
    · have hne' : p.place j ≠ p.place i := fun he => hne (Pairing.place_injective hj hi he)
      exact Or.inr ⟨fun he => absurd he hne, builder_changeBuilder_of_ne v hne f,
        builder_changeBuilder_of_ne w hne' g⟩
  refine { h with
    sizes := ?_, programs := fun j hj => ?_, bare := fun j hj => ?_, even := fun j hj hn => ?_,
    owned := fun j hj ho => ?_ }
  · rw [length_changeBuilder, length_changeBuilder]
    exact h.sizes
  · rw [changeBuilder, program_setBuilder, changeBuilder, program_setBuilder]
    exact h.programs j hj
  · rcases hcases hj with ⟨rfl, hv, hw⟩ | ⟨-, hv, hw⟩
    · rw [hv, hw, hbare]
    · rw [hv, hw, h.bare j hj]
  · rcases hcases hj with ⟨rfl, hv, hw⟩ | ⟨-, hv, hw⟩
    · rw [hv, hw, heven hn]
    · rw [hv, hw, h.even j hj hn]
  · rcases hcases hj with ⟨rfl, hv, hw⟩ | ⟨hnone, hv, hw⟩
    · rw [hv, hw, hown ho]
    · rw [hv, hw]
      by_cases hne : j = i
      · exact hnone hne
      · exact h.owned j hj (ho.imp_left fun hin => hbusy j hin hne)

/-- A change of a builder that is owned. -/
theorem change_owned (h : Twins p busy v w) (hi : p.Maps i) (ho : p.Owns busy i)
    (f : Builder → Builder) :
    Twins p busy (v.changeBuilder i f) (w.changeBuilder (p.place i) f) := by
  have hsame := h.owned i hi ho
  exact h.change hi (by rw [hsame]) (fun _ => by rw [hsame]) (fun _ => by rw [hsame])
    fun _ hin _ => hin

/-- Both may be told the same records. -/
theorem tell (h : Twins p busy v w) (ss : List Log.Record) :
    Twins p busy (v.withJournal (v.journal.addAll ss)) (w.withJournal (w.journal.addAll ss)) := by
  obtain ⟨rs, hv, hw⟩ := h.told
  refine { h with told := ⟨rs ++ ss, ?_, ?_⟩ }
  · rw [Log.Journal.addAll_append, ← hv]
    rfl
  · rw [Log.Journal.addAll_append, ← hw]
    rfl

theorem maps_length (h : Twins p busy v w) : p.Maps v.benches.length := by
  obtain ⟨m, hv, -⟩ := h.sizes
  exact Or.inr (by omega)

theorem place_length (h : Twins p busy v w) : p.place v.benches.length = w.benches.length := by
  obtain ⟨m, hv, hw⟩ := h.sizes
  rw [Pairing.place_of_made (by omega)]
  omega

/-- A new builder has its place behind all others in both. -/
theorem withBench (h : Twins p busy v w) (n : Bench) :
    Twins p busy (v.withBench n) (w.withBench n) := by
  have hcases {j : Nat} (hj : p.Maps j) :
      (w.withBench n).bench (p.place j) = (v.withBench n).bench j ∨
        (w.withBench n).bench (p.place j) = w.bench (p.place j) ∧
          (v.withBench n).bench j = v.bench j := by
    by_cases hlen : j = v.benches.length
    · rw [hlen, h.place_length, bench_withBench_self, bench_withBench_self]
      exact Or.inl rfl
    · have hplace : p.place j ≠ w.benches.length := fun he =>
        hlen (Pairing.place_injective hj h.maps_length (he.trans h.place_length.symm))
      exact Or.inr ⟨bench_withBench_of_ne n hplace, bench_withBench_of_ne n hlen⟩
  refine { h with
    sizes := ?_, programs := fun j hj => ?_, bare := fun j hj => ?_, even := fun j hj hn => ?_,
    owned := fun j hj ho => ?_ }
  · obtain ⟨m, hv, hw⟩ := h.sizes
    refine ⟨m + 1, ?_, ?_⟩
    · rw [Workshop.withBench, List.length_append, hv, List.length_singleton, Nat.add_assoc]
    · rw [Workshop.withBench, List.length_append, hw, List.length_singleton, Nat.add_assoc]
  · rcases hcases hj with he | ⟨hw, hv⟩
    · rw [he]
    · rw [hw, hv]
      exact h.programs j hj
  · rcases hcases hj with he | ⟨hw, hv⟩
    · rw [builder, builder, he]
    · rw [builder, builder, hw, hv]
      exact h.bare j hj
  · rcases hcases hj with he | ⟨hw, hv⟩
    · rw [builder, builder, he]
    · rw [builder, builder, hw, hv]
      exact h.even j hj hn
  · rcases hcases hj with he | ⟨hw, hv⟩
    · rw [builder, builder, he]
    · rw [builder, builder, hw, hv]
      exact h.owned j hj ho

end Twins

end Workshop

/-! ## Operations -/

namespace Op

open Workshop

variable {α α' β β' : Type} {p : Pairing} {busy : List BuilderId} {x : Op Workshop α}
  {y : Op Workshop α'} {g : α → α'} {v w : Workshop} {id : Nat}

/-- Whether two operations in twin workshops end in the same way and leave the workshops twins. -/
structure Echoes (p : Pairing) (busy : List BuilderId) (x : Op Workshop α) (g : α → α')
    (y : Op Workshop α') (v w : Workshop) : Prop where
  outcome : (y.run w).1 = (x.run v).1.map g
  twins : Twins p busy (x.run v).2 (y.run w).2

theorem Echoes.mono {more : List BuilderId} (h : x.Echoes p more g y v w) (hm : busy ⊆ more) :
    x.Echoes p busy g y v w := ⟨h.outcome, h.twins.mono hm⟩

theorem echoes_pure (h : Twins p busy v w) (a : α) :
    (pure a : Op Workshop α).Echoes p busy g (pure (g a)) v w := ⟨rfl, h⟩

theorem echoes_stop (h : Twins p busy v w) (e : Fault) :
    (stop e : Op Workshop α).Echoes p busy g (stop e) v w := ⟨rfl, h⟩

theorem Echoes.bind {f : α → Op Workshop β} {f' : α' → Op Workshop β'} {g' : β → β'}
    (hx : x.Echoes p busy g y v w)
    (hf : ∀ a t u, x.run v = (.ok a, t) → Twins p busy t u →
      (f a).Echoes p busy g' (f' (g a)) t u) :
    (x >>= f).Echoes p busy g' (y >>= f') v w := by
  obtain ⟨hout, htwins⟩ := hx
  rcases hx : x.run v with ⟨e | a, t⟩ <;> rcases hy : y.run w with ⟨e' | a', u⟩
  all_goals rw [hx, hy] at hout htwins
  · cases hout
    refine ⟨?_, ?_⟩
    · rw [run_bind_error hx, run_bind_error hy]
      rfl
    · rw [run_bind_error hx, run_bind_error hy]
      exact htwins
  · cases hout
  · cases hout
  · cases hout
    obtain ⟨hout', htwins'⟩ := hf a t u hx htwins
    refine ⟨?_, ?_⟩
    · rw [run_bind_ok hx, run_bind_ok hy, hout']
    · rw [run_bind_ok hx, run_bind_ok hy]
      exact htwins'

/-- Giving nothing back. -/
theorem Echoes.then_nothing {x y : Op Workshop Unit} (hx : x.Echoes p busy (fun a => a) y v w) :
    (x >>= fun _ => pure Reply.nothing).Echoes p busy (fun a => a)
      (y >>= fun _ => pure Reply.nothing) v w :=
  hx.bind fun _ _ _ _ ht => echoes_pure ht _

/-- Going on with a result that is there. -/
theorem echoes_liftM_bind {r : Except Fault α} {f : α → Op Workshop β} {f' : α → Op Workshop β'}
    {g' : β → β'} (h : Twins p busy v w)
    (hf : ∀ a, r = .ok a → (f a).Echoes p busy g' (f' a) v w) :
    ((liftM r : Op Workshop α) >>= f).Echoes p busy g' (liftM r >>= f') v w := by
  cases r with
  | error e => exact echoes_stop h e
  | ok a => exact hf a rfl

theorem echoes_ite {c : Prop} [Decidable c] {x' : Op Workshop α} {y' : Op Workshop α'}
    (hx : x.Echoes p busy g y v w) (hx' : x'.Echoes p busy g y' v w) :
    (if c then x else x').Echoes p busy g (if c then y else y') v w := by
  split
  · exact hx
  · exact hx'

/-- An attempt hands over the same fault. -/
theorem Echoes.attempt (hx : x.Echoes p busy g y v w) :
    x.attempt.Echoes p busy (Except.map g) y.attempt v w :=
  ⟨congrArg Except.ok hx.outcome, hx.twins⟩

section

variable (hid : p.Maps id) (ho : p.Owns busy id)
include hid ho

/-- Going on with what is read off a builder that is owned. -/
theorem echoes_read_bind {h : Builder → α} {f : α → Op Workshop β} {f' : α → Op Workshop β'}
    {g' : β → β'} (ht : Twins p busy v w)
    (hf : (f (h (v.builder id))).Echoes p busy g' (f' (h (v.builder id))) v w) :
    (read id h >>= f).Echoes p busy g' (read (p.place id) h >>= f') v w := by
  have hw : (read (p.place id) h >>= f').run w = (f' (h (v.builder id))).run w := by
    rw [← ht.owned id hid ho]
    rfl
  exact ⟨by rw [hw]; exact hf.outcome, by rw [hw]; exact hf.twins⟩

theorem echoes_change (ht : Twins p busy v w) (f : Builder → Builder) :
    (change id f).Echoes p busy (fun a => a) (change (p.place id) f) v w :=
  ⟨rfl, ht.change_owned hid ho f⟩

theorem Echoes.ensure (hx : x.Echoes p busy g y v w) (f : Builder → Builder) :
    (x.ensure (changeBuilder id f)).Echoes p busy g (y.ensure (changeBuilder (p.place id) f)) v w :=
  ⟨hx.outcome, hx.twins.change_owned hid ho f⟩

theorem Echoes.onFault (hx : x.Echoes p busy g y v w) (f : Builder → Builder) :
    (x.onFault (changeBuilder id f)).Echoes p busy g
      (y.onFault (changeBuilder (p.place id) f)) v w := by
  obtain ⟨hout, htwins⟩ := hx
  rcases hx : x.run v with ⟨e | a, t⟩ <;> rcases hy : y.run w with ⟨e' | a', u⟩
  all_goals rw [hx, hy] at hout htwins
  · refine ⟨?_, ?_⟩
    · rw [run_onFault, run_onFault, hx, hy]
      exact hout
    · rw [run_onFault, run_onFault, hx, hy]
      exact htwins.change_owned hid ho f
  · cases hout
  · cases hout
  · refine ⟨?_, ?_⟩
    · rw [run_onFault, run_onFault, hx, hy]
      exact hout
    · rw [run_onFault, run_onFault, hx, hy]
      exact htwins

end

end Op

namespace Workshop

variable {p : Pairing} {busy : List BuilderId} {v w t u : Workshop} {id other : Nat}
  {context : Value}

/-! ### Calls, targets, blocks and splices -/

theorem logged_echoes {α : Type} (h : Twins p busy v w) {x : Op Log.Journal α} (hx : x.Logging) :
    (logged x).Echoes p busy (fun a => a) (logged x) v w := by
  obtain ⟨rs, r, hx⟩ := hx
  refine ⟨?_, ?_⟩
  · rw [run_logged, run_logged, hx, hx]
    cases r <;> rfl
  · rw [run_logged, run_logged, hx, hx]
    exact h.tell rs

section

variable (hid : p.Maps id) (ho : p.Owns busy id)
include hid ho

theorem call_echoes (h : Twins p busy v w) (c : Call Value) :
    (call id c).Echoes p busy (fun r => r) (call (p.place id) c) v w := by
  refine echoes_read_bind hid ho h ?_
  refine (logged_echoes h (Builder.apply_logging _ c)).bind fun a t u _ ht => ?_
  exact (echoes_change hid ho ht _).bind fun _ _ _ _ ht => echoes_pure ht _

theorem addOwnQuery_echoes (h : Twins p busy v w) :
    (addOwnQuery id).Echoes p busy (fun r => r) (addOwnQuery (p.place id)) v w :=
  echoes_read_bind hid ho h
    (echoes_liftM_bind h fun b _ => echoes_change hid ho h fun _ => b)

theorem openBlock_echoes (h : Twins p busy v w) (condition : Value) (opener : Command) :
    (openBlock id condition opener).Echoes p busy (fun n => n)
      (openBlock (p.place id) condition opener) v w := by
  refine echoes_read_bind hid ho h (echoes_ite (echoes_stop h _) ?_)
  exact (echoes_change hid ho h _).bind fun _ _ _ _ ht => echoes_pure ht _

/-- A block goes the same way if its body does, where the block is open. -/
theorem block_echoes {h : BlockHead Value} {body body' : Op Workshop Unit} (ht : Twins p busy v w)
    (hbody : ∀ opener u, h.opener = .ok opener →
      (v.builder id).openConditions.any (·.same h.condition) = false →
        Twins p busy (v.opened id h.condition opener) u →
          body.Echoes p busy (fun r => r) body' (v.opened id h.condition opener) u) :
    (block id h body).Echoes p busy (fun r => r) (block (p.place id) h body') v w := by
  refine echoes_liftM_bind ht fun opener hopener => ?_
  refine (openBlock_echoes hid ho ht h.condition opener).bind fun start t u hopen htu => ?_
  have hinside : body.Echoes p busy (fun r => r) body' t u := by
    rw [run_openBlock] at hopen
    cases hany : (v.builder id).openConditions.any (·.same h.condition) with
    | true =>
        rw [hany] at hopen
        cases hopen
    | false =>
        rw [hany] at hopen
        cases hopen
        exact hbody opener u hopener hany htu
  have hcut := hinside.onFault hid ho fun b => { b with stream := b.stream.take start }
  have hdrop := hcut.ensure hid ho fun b => { b with openConditions := b.openConditions.dropLast }
  exact hdrop.bind fun _ _ _ _ ht => echoes_change hid ho ht _

/-- Commands are taken over alike from builders that have the same. -/
theorem takeOver_echoes (h : Twins p busy v w) (hother : p.Maps other)
    (hstream : (w.builder (p.place other)).stream = (v.builder other).stream) :
    (takeOver id other).Echoes p busy (fun r => r) (takeOver (p.place id) (p.place other)) v w := by
  have hkind : (w.builder (p.place other)).kind = (v.builder other).kind := by
    have hbare := congrArg Builder.kind (h.bare other hother)
    exact hbare
  have htaken : Twins p busy (v.takenOver id other) (w.takenOver (p.place id) (p.place other)) := by
    rw [takenOver, takenOver, hstream]
    exact h.change_owned hid ho _
  have hlength : ((w.takenOver (p.place id) (p.place other)).builder (p.place other)).stream =
      ((v.takenOver id other).builder other).stream := by
    by_cases he : other = id
    · subst he
      rw [htaken.owned other hid ho]
    · have hne : p.place other ≠ p.place id := fun h => he (Pairing.place_injective hother hid h)
      rw [takenOver, takenOver, builder_changeBuilder_of_ne v he, builder_changeBuilder_of_ne w hne,
        hstream]
  have htold := htaken.tell
    [takeOverReport ((v.takenOver id other).builder other).stream.length (v.builder other).kind]
  refine ⟨?_, ?_⟩
  · rw [run_takeOver, run_takeOver, hstream, h.owned id hid ho, hkind]
    split <;> rfl
  · rw [run_takeOver, run_takeOver, hstream, h.owned id hid ho, hkind, hlength]
    split
    · exact h
    · exact htold

/-- A builder is lent alike if it is equally strict in both or the taker is strict, and is owned
then. -/
theorem Twins.lent (h : Twins p busy v w) (hother : p.Maps other)
    (hlike : other ∈ p.aliens → (v.builder id).strict = true ∨ p.Owns busy other) :
    Twins p (other :: busy) (v.lent id other) (w.lent (p.place id) (p.place other)) := by
  have hsame : lend (v.builder id) (w.builder (p.place other)) =
      lend (v.builder id) (v.builder other) := by
    have hstrict : ((w.builder (p.place other)).strict || (v.builder id).strict) =
        ((v.builder other).strict || (v.builder id).strict) := by
      by_cases hin : other ∈ p.aliens
      · rcases hlike hin with hs | ho
        · rw [hs, Bool.or_true, Bool.or_true]
        · rw [h.owned other hother ho]
      · rw [h.even other hother hin]
    rw [lend_eq, lend_eq, h.bare other hother, hstrict]
  rw [lent_eq_change, lent_eq_change, h.owned id hid ho]
  exact h.change hother (by rw [hsame]) (fun _ => by rw [hsame]) (fun _ => hsame)
    fun j hin hne => List.mem_of_ne_of_mem hne hin

/-- A splice goes the same way if the other builder builds the same way on loan. -/
theorem splice_echoes {build build' : Building} (h : Twins p busy v w) (hother : p.Maps other)
    (hbuild : (build other context).Echoes p (other :: busy) (fun r => r)
      (build' (p.place other) context) (v.lent id other) (w.lent (p.place id) (p.place other))) :
    (splice build id other context).Echoes p busy (fun r => r)
      (splice build' (p.place id) (p.place other) context) v w := by
  have howned : p.Owns (other :: busy) other := Or.inl List.mem_cons_self
  -- What the other builder gets back is as much alike as what it had.
  have hback {t u : Workshop} (htu : Twins p (other :: busy) t u) :
      Twins p busy (t.changeBuilder other (giveBack (v.builder other).clear))
        (u.changeBuilder (p.place other) (giveBack (w.builder (p.place other)).clear)) := by
    have hsame := htu.owned other hother howned
    refine htu.change hother ?_ (fun hn => h.even other hother hn) (fun ho => ?_)
      fun j hin _ => List.mem_cons_of_mem other hin
    · rw [hsame]
      rfl
    · rw [hsame, h.owned other hother ho]
  obtain ⟨hout, htwins⟩ := hbuild
  rcases hv : (build other context).run (v.lent id other) with ⟨e | a, t⟩ <;>
    rcases hw : (build' (p.place other) context).run (w.lent (p.place id) (p.place other)) with
      ⟨e' | a', u⟩
  all_goals rw [hv, hw] at hout htwins
  · refine ⟨?_, ?_⟩
    · rw [run_splice, run_splice, hv, hw]
      exact hout
    · rw [run_splice, run_splice, hv, hw, builder_cleared, builder_cleared]
      exact hback htwins
  · cases hout
  · cases hout
  · have htaken := takeOver_echoes hid ho (hback htwins) hother (by
      rw [stream_givenBack, stream_givenBack, htwins.owned other hother howned])
    refine ⟨?_, ?_⟩
    · rw [run_splice, run_splice, hv, hw, builder_cleared, builder_cleared]
      exact htaken.outcome
    · rw [run_splice, run_splice, hv, hw, builder_cleared, builder_cleared]
      exact htaken.twins

end

theorem find_echoes (h : Twins p busy v w) (target : Target) :
    (find target).Echoes p busy p.place (find target) v w := by
  cases target with
  | named n =>
      refine ⟨?_, ?_⟩
      · rw [run_named, run_named, h.names]
        cases hl : v.names.lookup n with
        | none => rfl
        | some i =>
            obtain ⟨l₁, l₂, hn, -⟩ := List.lookup_eq_some_iff.mp hl
            have hin : (n, i) ∈ v.names := hn ▸ List.mem_append_right _ List.mem_cons_self
            exact congrArg Except.ok (Pairing.place_of_shared (h.named _ hin)).symm
      · rw [run_named, run_named, h.names]
        cases v.names.lookup n <;> exact h
  | fresh kind equipped strict fn args program =>
      have hbench (xs : List Value) : freshBench kind equipped strict fn xs program w =
          freshBench kind equipped strict fn xs program v := by
        rw [freshBench, freshBench, h.airframe]
      refine ⟨?_, ?_⟩
      · rw [run_fresh, run_fresh]
        cases (if kind.asks then args.itemsIfSet else .ok [] : Except Fault (List Value)) with
        | error e => rfl
        | ok xs => exact congrArg Except.ok h.place_length.symm
      · rw [run_fresh, run_fresh]
        cases (if kind.asks then args.itemsIfSet else .ok [] : Except Fault (List Value)) with
        | error e => exact h
        | ok xs =>
            dsimp only
            rw [hbench]
            exact h.withBench _

/-- Every target that is found has a place in both. -/
theorem Twins.maps_found (h : Twins p busy v w) {target : Target} {other : BuilderId}
    (hr : (find target).run v = (.ok other, t)) : p.Maps other := by
  rcases find_cases target v with ⟨e, hf⟩ | ⟨n, i, hin, hf⟩ | ⟨b, -, -, hf⟩
  · rw [hf] at hr
    cases hr
  · rw [hf] at hr
    cases hr
    exact Or.inl (h.named _ hin)
  · rw [hf] at hr
    cases hr
    exact h.maps_length

/-- An attempt notes the same fault. -/
theorem note_echoes (h : Twins p busy v w) (r : Except Fault Unit) :
    (note r).Echoes p busy (fun a => a) (note r) v w := by
  obtain ⟨ns, hv, hw⟩ := h.noted
  have hnoted (n : Option Fault) : ∃ ns, v.caught ++ [n] = p.first.caught ++ ns ∧
      w.caught ++ [n] = p.second.caught ++ ns :=
    ⟨ns ++ [n], by rw [hv, List.append_assoc], by rw [hw, List.append_assoc]⟩
  cases r with
  | ok => exact ⟨rfl, { h with noted := hnoted none }⟩
  | error f => exact ⟨rfl, { h with noted := hnoted (some f) }⟩

end Workshop

open Workshop

/-! ## Programs and builds -/

/-- Whether two ways of building go alike in twin workshops, where the touches admit it. -/
def Building.Echoing (p : Pairing) (build build' : Building) (inner : Diary) : Prop :=
  ∀ (busy : List BuilderId) (id : BuilderId) (context : Value) (v w : Workshop),
    Twins p busy v w → p.Maps id → id ∈ busy → p.Admits (inner busy id context v) →
      (build id context).Echoes p busy (fun r => r) (build' (p.place id) context) v w

variable {p : Pairing} {build build' : Building} {inner : Diary}

mutual

/-- A step goes alike in twin workshops, where its touches admit it. -/
theorem Step.run_echoes (hb : build.Echoing p build' inner) : ∀ (s : Step)
    {busy : List BuilderId} {id : BuilderId} {context : Value} {v w : Workshop},
      Twins p busy v w → p.Maps id → id ∈ busy →
        p.Admits (s.touches build inner busy id context v) →
          (s.run build id context).Echoes p busy (fun r => r) (s.run build' (p.place id) context)
            v w
  | .call c, busy, id, context, v, w => by
      intro h hid hin _
      rw [Step.run, Step.run]
      exact echoes_liftM_bind h fun c' _ => call_echoes hid (Or.inl hin) h c'
  | .block head body, busy, id, context, v, w => by
      intro h hid hin hs
      rw [Step.touches] at hs
      rw [Step.run, Step.run]
      refine echoes_liftM_bind h fun hd hh => Echoes.then_nothing ?_
      refine block_echoes hid (Or.inl hin) h fun opener u ho hn hu => ?_
      rw [follow_ok (Step.run_openCondition hh ho hn)] at hs
      exact Program.run_echoes hb body hu hid hin hs
  | .splice target c, busy, id, context, v, w => by
      intro h hid hin hs
      rw [Step.touches] at hs
      rw [Step.run, Step.run]
      refine (find_echoes h target).bind fun other t u hfind ht => ?_
      rw [follow_ok hfind] at hs
      refine echoes_liftM_bind ht fun context' hc => Echoes.then_nothing ?_
      rw [hc] at hs
      have hother := h.maps_found hfind
      refine splice_echoes hid (Or.inl hin) ht hother ?_
      exact hb _ _ _ _ _ (ht.lent hid (Or.inl hin) hother hs.head) hother List.mem_cons_self hs.tail
  | .build c, busy, id, context, v, w => by
      intro h hid hin hs
      rw [Step.touches] at hs
      rw [Step.run, Step.run]
      refine echoes_liftM_bind h fun context' hc => Echoes.then_nothing ?_
      rw [hc] at hs
      exact hb busy id context' v w h hid hin hs
  | .raise f, busy, id, context, v, w => by
      intro h _ _ _
      rw [Step.run, Step.run]
      exact echoes_stop h f
  | .attempt body, busy, id, context, v, w => by
      intro h hid hin hs
      rw [Step.touches] at hs
      rw [Step.run, Step.run]
      refine (Program.run_echoes hb body h hid hin hs).attempt.bind fun r t u _ ht => ?_
      have hr : Except.map (fun a => a) r = r := by cases r <;> rfl
      rw [hr]
      exact (note_echoes ht r).then_nothing
  | .on target step, busy, id, context, v, w => by
      intro h hid hin hs
      rw [Step.touches] at hs
      rw [Step.run, Step.run]
      refine (find_echoes h target).bind fun other t u hfind ht => ?_
      rw [follow_ok hfind] at hs
      refine (Step.run_echoes hb step (ht.enter hs.head) (h.maps_found hfind) List.mem_cons_self
        hs.tail).mono (List.subset_cons_self _ _)
  | .inspect target, busy, id, context, v, w => by
      intro h hid hin hs
      rw [Step.touches] at hs
      rw [Step.run, Step.run]
      refine (find_echoes h target).bind fun other t u hfind ht => ?_
      rw [follow_ok hfind] at hs
      exact echoes_read_bind (h.maps_found hfind) hs.head ht (echoes_pure ht _)
termination_by structural s => s

/-- So do steps in order. -/
theorem Program.run_echoes (hb : build.Echoing p build' inner) : ∀ (ss : List Step)
    {busy : List BuilderId} {id : BuilderId} {context : Value} {v w : Workshop},
      Twins p busy v w → p.Maps id → id ∈ busy →
        p.Admits (Program.touches build inner busy id context ss v) →
          (Program.run build id context ss).Echoes p busy (fun r => r)
            (Program.run build' (p.place id) context ss) v w
  | [], busy, id, context, v, w => by
      intro h _ _ _
      rw [Program.run, Program.run]
      exact echoes_pure h ()
  | s :: ss, busy, id, context, v, w => by
      intro h hid hin hs
      rw [Program.touches] at hs
      have hrest := hs.tail.right
      rw [Program.run, Program.run]
      refine (Step.run_echoes hb s h hid hin hs.tail.left).bind fun _ t u hrun ht => ?_
      rw [follow_ok hrun] at hrest
      exact Program.run_echoes hb ss ht hid hin hrest
termination_by structural ss => ss

end

/-- So does building.  Where builders need not build to the same depth, they may build deeper in
the second workshop. -/
theorem Builder.build_echoes {depth depth' : Nat} (hle : depth ≤ depth')
    (hlevel : p.level = true → depth = depth') :
    (Builder.build depth).Echoing p (Builder.build depth') (Builder.touches depth) := by
  induction depth generalizing depth' with
  | zero =>
      intro busy id context v w h _ _ hs
      rcases (hs _ List.mem_cons_self).2 with hl | hl
      · rw [← hlevel hl]
        exact echoes_stop h _
      · cases hl
  | succ depth ih =>
      intro busy id context v w h hid hin hs
      obtain ⟨deep, rfl⟩ := Nat.exists_eq_add_one_of_ne_zero (Nat.ne_of_gt (Nat.zero_lt_of_lt hle))
      have hdeeper := ih (Nat.le_of_succ_le_succ hle) fun hl => Nat.succ.inj (hlevel hl)
      have ho : p.Owns busy id := Or.inl hin
      have hbuilder : w.builder (p.place id) = v.builder id := h.owned id hid ho
      have hprogram : (w.bench (p.place id)).program = (v.bench id).program := h.programs id hid
      -- an operation that does what the build does in each of the workshops
      have of_run {x y : Op Workshop Unit} (hxy : x.Echoes p busy (fun r => r) y v w)
          (hx : (Builder.build (depth + 1) id context).run v = x.run v)
          (hy : (Builder.build (deep + 1) (p.place id) context).run w = y.run w) :
          (Builder.build (depth + 1) id context).Echoes p busy (fun r => r)
            (Builder.build (deep + 1) (p.place id) context) v w :=
        ⟨by rw [hx, hy]; exact hxy.outcome, by rw [hx, hy]; exact hxy.twins⟩
      rw [Builder.touches] at hs
      cases hk : (v.builder id).kind with
      | plain =>
          refine of_run (echoes_stop h (.noBuild BuilderKind.plain.name)) ?_ ?_
          · rw [run_build, hk]
            rfl
          · rw [run_build, hbuilder, hk]
            rfl
      | setup =>
          refine of_run (echoes_change hid ho h fun b => b.append b.setupCommands) ?_ ?_
          · rw [run_build, hk]
            rfl
          · rw [run_build, hbuilder, hk]
            rfl
      | teardown =>
          refine of_run (echoes_change hid ho h (·.append teardownCommands)) ?_ ?_
          · rw [run_build, hk]
            rfl
          · rw [run_build, hbuilder, hk]
            rfl
      | query =>
          refine of_run (addOwnQuery_echoes hid ho h) ?_ ?_
          · rw [run_build, hk]
          · rw [run_build, hbuilder, hk]
      | script =>
          rw [hk] at hs
          refine of_run (Program.run_echoes hdeeper _ h hid hin hs) ?_ ?_
          · rw [run_build, hk]
          · rw [run_build, hbuilder, hk, hprogram]
      | scriptQuery =>
          rw [hk] at hs
          have hquery := (Program.run_echoes hdeeper _ h hid hin hs).bind fun _ _ _ _ ht =>
            addOwnQuery_echoes hid ho ht
          refine of_run hquery ?_ ?_
          · rw [run_build, hk]
          · rw [run_build, hbuilder, hk, hprogram]

end Cockpit
