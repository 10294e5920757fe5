import Cockpit.Proofs.Op.Outcome

/-!
# Properties that operations preserve

`Op.Preserves P x` says that `x` leads from every state with `P` to a state with `P`,
whether it ends in a result or a fault.  There is one lemma for each way in which
operations are put together, so an operation preserves what its parts preserve.
-/

namespace Cockpit.Op

variable {σ τ α β : Type} {P : σ → Prop} {x : Op σ α}

/-- Whether an operation keeps a property of the state, however it ends. -/
def Preserves (P : σ → Prop) (x : Op σ α) : Prop := ∀ s, P s → P (x.run s).2

theorem preserves_pure (a : α) : (pure a : Op σ α).Preserves P := fun _ h => h

theorem preserves_stop (f : Fault) : (stop f : Op σ α).Preserves P := fun _ h => h

theorem preserves_liftM (x : Except Fault α) : (liftM x : Op σ α).Preserves P := fun _ h => h

theorem preserves_state : (state : Op σ σ).Preserves P := fun _ h => h

theorem preserves_update {f : σ → σ} (hf : ∀ s, P s → P (f s)) : (update f).Preserves P := hf

/-- What holds where an operation ends, and is kept by what goes on after its results, holds in
the end. -/
theorem bind_keeps {f : α → Op σ β} {s : σ} (hx : P (x.run s).2)
    (hf : ∀ a t, x.run s = (.ok a, t) → P t → P ((f a).run t).2) : P ((x >>= f).run s).2 := by
  rcases run_bind_cases x f s with ⟨a, t, hr, hrun⟩ | ⟨e, t, hr, hrun⟩
  · rw [hr] at hx
    rw [hrun]
    exact hf a t hr hx
  · rw [hr] at hx
    rw [hrun]
    exact hx

theorem Preserves.bind {f : α → Op σ β} (hx : x.Preserves P) (hf : ∀ a, (f a).Preserves P) :
    (x >>= f).Preserves P := fun s hs => bind_keeps (hx s hs) fun a t _ ht => hf a t ht

theorem preserves_ite {c : Prop} [Decidable c] {y : Op σ α} (hx : x.Preserves P)
    (hy : y.Preserves P) : (if c then x else y).Preserves P := by
  split
  · exact hx
  · exact hy

theorem Preserves.attempt (hx : x.Preserves P) : x.attempt.Preserves P := hx

theorem Preserves.ensure {close : σ → σ} (hx : x.Preserves P) (hc : ∀ s, P s → P (close s)) :
    (x.ensure close).Preserves P := fun s hs => hc _ (hx s hs)

theorem Preserves.onFault {undo : σ → σ} (hx : x.Preserves P) (hu : ∀ s, P s → P (undo s)) :
    (x.onFault undo).Preserves P := by
  intro s hs
  have ht := hx s hs
  rw [run_onFault]
  rcases hr : x.run s with ⟨e | a, t⟩
  · rw [hr] at ht
    exact hu t ht
  · rw [hr] at ht
    exact ht

/-- What holds where an operation ends, and is preserved by what goes on after its faults, holds
in the end. -/
theorem recover_keeps {catches : Fault → Bool} {handle : Fault → Op σ α} {s : σ}
    (hx : P (x.run s).2) (hh : ∀ f, (handle f).Preserves P) :
    P ((x.recover catches handle).run s).2 := by
  rw [run_recover]
  rcases hr : x.run s with ⟨e | a, t⟩
  · rw [hr] at hx
    dsimp only
    split
    · exact hh e t hx
    · exact hx
  · rw [hr] at hx
    exact hx

theorem Preserves.recover {catches : Fault → Bool} {handle : Fault → Op σ α}
    (hx : x.Preserves P) (hh : ∀ f, (handle f).Preserves P) :
    (x.recover catches handle).Preserves P := fun s hs => recover_keeps (hx s hs) hh

/-- An operation on a part that has the property preserves it of the whole. -/
theorem Preserves.on {p : Part σ τ} {Q : τ → Prop} {x : Op τ α} (hx : x.Preserves Q)
    (hget : ∀ s, P s → Q (p.get s)) (hset : ∀ s t, P s → Q t → P (p.set t s)) :
    (x.on p).Preserves P := fun s hs => hset s _ hs (hx _ (hget s hs))

/-- An operation on a part on which the property does not depend preserves it. -/
theorem preserves_on {p : Part σ τ} (x : Op τ α) (hset : ∀ s t, P s → P (p.set t s)) :
    (x.on p).Preserves P := fun s hs => hset s _ hs

end Cockpit.Op
