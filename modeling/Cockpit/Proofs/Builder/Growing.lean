import Cockpit.Proofs.Builder.Absorbing

/-!
# What a program adds to its builder

A step that only adds leaves the commands that its builder has, and adds others behind them.
`Workshop.Grows` says so of an operation whenever it gives a result, and `Program.run_grows`
is the induction over programs that only add.
-/

namespace Cockpit

open Op Workshop

namespace Workshop

variable {w w' : Workshop} {id : BuilderId} {f : Builder → Builder}

/-! ## What programs that only add do to their builder -/

/-- A builder has more commands than before, and the same airframe. -/
structure Grown (id : BuilderId) (w w' : Workshop) : Prop where
  airframe : (w'.builder id).airframe = (w.builder id).airframe
  stream : (w.builder id).stream <+: (w'.builder id).stream

theorem Grown.of_eq (h : w'.builder id = w.builder id) : Grown id w w' where
  airframe := by rw [h]
  stream := ⟨[], by rw [h, List.append_nil]⟩

theorem Grown.trans {w'' : Workshop} (h : Grown id w w') (h' : Grown id w' w'') :
    Grown id w w'' :=
  ⟨h'.airframe.trans h.airframe, h.stream.trans h'.stream⟩

theorem Grown.change (hid : id < w.benches.length)
    (ha : (f (w.builder id)).airframe = (w.builder id).airframe)
    (hs : (w.builder id).stream <+: (f (w.builder id)).stream) :
    Grown id w (w.changeBuilder id f) := by
  constructor
  · rw [builder_changeBuilder_self hid, ha]
  · rw [builder_changeBuilder_self hid]
    exact hs

theorem grown_append (hid : id < w.benches.length) (cs : Stream) :
    Grown id w (w.changeBuilder id (·.append cs)) :=
  .change hid rfl (List.prefix_append _ _)

/-- A builder grows by what an operation does that gives a result. -/
def Grows {α : Type} (id : BuilderId) (x : Op Workshop α) (w : Workshop) : Prop :=
  ∀ a w', x.run w = (.ok a, w') → Grown id w w'

theorem Grows.bind {α β : Type} {x : Op Workshop α} {g : α → Op Workshop β}
    (hx : Grows id x w) (hg : ∀ a w', x.run w = (.ok a, w') → Grows id (g a) w') :
    Grows id (x >>= g) w := by
  intro b w'' h
  obtain ⟨a, w', hr, hrest⟩ := run_bind_eq_ok h
  exact (hx a w' hr).trans (hg a w' hr b w'' hrest)

theorem grows_pure {α : Type} (a : α) : Grows id (pure a : Op Workshop α) w := by
  intro b w' h
  cases h
  exact .of_eq rfl

theorem grows_liftM {α : Type} (x : Except Fault α) :
    Grows id (liftM x : Op Workshop α) w := by
  intro b w' h
  cases h
  exact .of_eq rfl

theorem call_grows (hid : id < w.benches.length) {c : Call Value} (hc : c.isAdding = true) :
    Grows id (call id c) w := by
  intro r w' h
  rw [run_call] at h
  rcases happ : ((w.builder id).apply c).run w.journal with ⟨e | ⟨b, r'⟩, j⟩
  · rw [happ] at h
    cases h
  · rw [happ] at h
    cases h
    rcases Builder.apply_cases happ with ⟨rfl, -⟩ | ⟨n, s, rfl, -⟩ | ⟨v, rfl, -⟩ | ⟨cs, -, rfl⟩
    · cases hc
    · cases hc
    · cases hc
    · have hg := grown_append (w := { w with journal := j }) hid cs
      exact ⟨hg.airframe, hg.stream⟩

/-- A block adds its two commands and what its body adds. -/
theorem block_grows (hid : id < w.benches.length) {body : Op Workshop Unit} (h : BlockHead Value)
    (hbody : ∀ w', Extends w w' → Grows id body w' ∧ Extends w' (body.run w').2) :
    Grows id (block id h body) w := by
  intro u w' hrun
  rcases run_block_cases id h body w with ⟨e, hr⟩ | ⟨c, -, -, hr⟩
  · rw [hr] at hrun
    cases hrun
  · rw [hr] at hrun
    obtain ⟨hgrows, hextends⟩ := hbody (w.opened id h.condition c) (extends_changeBuilder _ _ _)
    rcases ht : body.run (w.opened id h.condition c) with ⟨e | v, t⟩
    · rw [ht] at hrun
      cases hrun
    · rw [ht] at hrun hextends
      cases hrun
      have hopen : Grown id w (w.opened id h.condition c) :=
        .change hid rfl (List.prefix_append _ _)
      have hlt : id < t.benches.length := by
        refine Nat.lt_of_lt_of_le ?_ hextends.grows
        rwa [opened, length_changeBuilder]
      have hdrop : Grown id t (dropCondition id t) := .change hlt rfl (List.prefix_refl _)
      have hlt' : id < (dropCondition id t).benches.length := by
        rwa [dropCondition, length_changeBuilder]
      exact hopen.trans ((hgrows v t ht).trans (hdrop.trans (grown_append hlt' _)))

theorem takeOver_grows {other : BuilderId} (hid : id < w.benches.length) :
    Grows id (takeOver id other) w := by
  intro u w' hrun
  rw [run_takeOver] at hrun
  split at hrun
  · cases hrun
  · cases hrun
    have hg : Grown id w (w.takenOver id other) := grown_append hid _
    exact ⟨hg.airframe, hg.stream⟩

/-- A splice adds what the other builder has built, which spares the one that takes it. -/
theorem splice_grows {build : Building} {other : BuilderId} {context : Value}
    (hid : id < w.benches.length) (hne : id ≠ other)
    (hbuild : ∀ w', Extends w w' → (build other context).Spares [id] w') :
    Grows id (splice build id other context) w := by
  intro u w' hrun
  rw [run_splice] at hrun
  have hlent := extends_lent id other w
  have hspares := hbuild _ hlent
  rcases hr : (build other context).run (w.lent id other) with ⟨e | v, t⟩
  · rw [hr] at hrun
    cases hrun
  · rw [hr] at hrun
    dsimp only at hrun
    have hback := hspares.builder_eq List.mem_cons_self (Nat.lt_of_lt_of_le hid hlent.grows)
    have hgrows := hspares.extended.grows
    rw [hr] at hback hgrows
    have hsame : t.builder id = w.builder id := by
      rw [hback, builder_lent_of_ne hne]
    generalize hu : t.changeBuilder other
      (giveBack ((w.changeBuilder other Builder.clear).builder other)) = v at hrun
    have hv : v.builder id = w.builder id := by
      rw [← hu, builder_changeBuilder_of_ne _ hne, hsame]
    have hlt : id < v.benches.length := by
      rw [← hu, length_changeBuilder]
      exact Nat.lt_of_lt_of_le hid (Nat.le_trans hlent.grows hgrows)
    exact (Grown.of_eq hv).trans (takeOver_grows hlt u w' hrun)

end Workshop

variable {build : Building} {names : List String}

mutual

/-- A step that only adds adds to the stream of its builder. -/
theorem Step.run_grows (hb : build.Sparing names) : ∀ (s : Step) {id : BuilderId}
    {context : Value} {w : Workshop}, s.onlyAdds names = true → id < w.benches.length →
      Supplies names [id] w → Grows id (s.run build id context) w
  | .call c, id, context, w => by
      intro hs hid _
      rw [Step.onlyAdds] at hs
      rw [Step.run]
      refine (grows_liftM _).bind fun c' w' hr => ?_
      obtain ⟨hr', rfl⟩ : c.resolve context = .ok c' ∧ w = w' := Prod.mk.inj hr
      exact call_grows hid (Call.resolve_isAdding hs context c' hr')
  | .block head body, id, context, w => by
      intro hs hid hsup
      rw [Step.onlyAdds] at hs
      rw [Step.run]
      refine (grows_liftM _).bind fun h w₁ hr => ?_
      obtain rfl : w = w₁ := (Prod.mk.inj hr).2
      refine Grows.bind (block_grows hid h fun w₂ he => ?_) fun _ _ _ => grows_pure _
      have hid' := Nat.lt_of_lt_of_le hid he.grows
      have hsup' := hsup.extend he
      have hnone : Supplies names [] w₂ := hsup'.mono fun _ h => absurd h List.not_mem_nil
      refine ⟨Program.run_grows hb body hs hid' hsup', ?_⟩
      exact (Program.run_spares hb body hs (fun _ h => absurd h List.not_mem_nil) hnone
        List.not_mem_nil).extended
  | .splice target c, id, context, w => by
      intro hs hid hsup
      rw [Step.onlyAdds] at hs
      rw [Step.run]
      have hin : ∀ i ∈ [id], i < w.benches.length := fun i hi => List.mem_singleton.mp hi ▸ hid
      obtain ⟨hfind, hfound⟩ := find_spares hsup hs hin
      have hgrows : Grows id (find target) w := by
        intro other w₁ hr
        have hsame := hfind.builder_eq List.mem_cons_self hid
        rw [hr] at hsame
        exact .of_eq hsame
      refine hgrows.bind fun other w₁ hr => ?_
      have h₁ := hfind.extended
      rw [hr] at h₁
      obtain ⟨hlt, hother, hadds⟩ := hfound other w₁ hr
      have hid' := Nat.lt_of_lt_of_le hid h₁.grows
      have hne : id ≠ other := fun h => hother (h ▸ List.mem_cons_self)
      refine (grows_liftM _).bind fun context' w₂ hr => ?_
      obtain rfl : w₁ = w₂ := (Prod.mk.inj hr).2
      refine Grows.bind (splice_grows hid' hne fun w₃ he => ?_) fun _ _ _ => grows_pure _
      refine hb [id] other context' w₃ (fun i hi => ?_) (hsup.extend (h₁.trans he))
        (Nat.lt_of_lt_of_le hlt he.grows) hother ?_
      · exact List.mem_singleton.mp hi ▸ Nat.lt_of_lt_of_le hid' he.grows
      · rw [he.programs other hlt]
        exact hadds
  | .raise f, id, context, w => by
      intro _ _ _
      rw [Step.run]
      exact fun _ _ h => nomatch h
  | .build _, _, _, _ => nofun
  | .attempt _, _, _, _ => nofun
  | .on _ _, _, _, _ => nofun
  | .inspect _, _, _, _ => nofun
termination_by structural s => s

/-- So do steps in order. -/
theorem Program.run_grows (hb : build.Sparing names) : ∀ (ss : List Step) {id : BuilderId}
    {context : Value} {w : Workshop}, Program.onlyAdds names ss = true →
      id < w.benches.length → Supplies names [id] w → Grows id (Program.run build id context ss) w
  | [], id, context, w => by
      intro _ _ _
      rw [Program.run]
      exact grows_pure ()
  | s :: ss, id, context, w => by
      intro hs hid hsup
      rw [Program.onlyAdds, Bool.and_eq_true] at hs
      obtain ⟨hs, hss⟩ := hs
      rw [Program.run]
      refine (Step.run_grows hb s hs hid hsup).bind fun _ w' hr => ?_
      have hnone : Supplies names [] w := hsup.mono fun _ h => absurd h List.not_mem_nil
      have hspares : (s.run build id context).Spares [] w :=
        Step.run_spares hb s hs (fun _ h => absurd h List.not_mem_nil) hnone List.not_mem_nil
      have he := hspares.extended
      rw [hr] at he
      exact Program.run_grows hb ss hss (Nat.lt_of_lt_of_le hid he.grows) (hsup.extend he)
termination_by structural ss => ss

end

end Cockpit
