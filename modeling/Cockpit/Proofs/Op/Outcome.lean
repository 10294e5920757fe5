import Cockpit.Op

/-!
# Outcomes of operations

What is known of the end of an operation from the ends of its parts.

`Op.run_bind_cases` peels one operation off a sequence: the first one ended in a
result and the rest ran, or it ended in a fault and the rest did not.

`Op.Yields` says that every result of an operation has a property, in whatever
state it runs.  Faults have none.
-/

namespace Cockpit.Op

variable {σ τ α β : Type}

/-! ## Sequences -/

/-- A sequence that gives a result had a result to go on with. -/
theorem exists_of_bind_ok {ε : Type} {x : Except ε α} {f : α → Except ε β} {b : β}
    (h : x >>= f = .ok b) : ∃ a, x = .ok a ∧ f a = .ok b := by
  cases x with
  | ok a => exact ⟨a, rfl, h⟩
  | error e => cases h

@[simp] theorem run_liftM (x : Except Fault α) (s : σ) :
    (liftM x : Op σ α).run s = (x, s) := rfl

/-- A sequence goes on after a result and stops after a fault. -/
theorem run_bind_cases (x : Op σ α) (f : α → Op σ β) (s : σ) :
    (∃ a t, x.run s = (.ok a, t) ∧ (x >>= f).run s = (f a).run t) ∨
      (∃ e t, x.run s = (.error e, t) ∧ (x >>= f).run s = (.error e, t)) := by
  rcases h : x.run s with ⟨a | a, t⟩
  · exact Or.inr ⟨a, t, rfl, run_bind_error h⟩
  · exact Or.inl ⟨a, t, rfl, run_bind_ok h⟩

/-- A sequence that ended in a result had a result to go on with. -/
theorem run_bind_eq_ok {x : Op σ α} {f : α → Op σ β} {s u : σ} {b : β}
    (h : (x >>= f).run s = (.ok b, u)) :
    ∃ a t, x.run s = (.ok a, t) ∧ (f a).run t = (.ok b, u) := by
  rcases run_bind_cases x f s with ⟨a, t, hx, hf⟩ | ⟨e, t, _, hf⟩
  · exact ⟨a, t, hx, hf ▸ h⟩
  · rw [hf] at h
    cases h

/-- A sequence after a result or fault that is already there. -/
theorem run_liftM_bind (x : Except Fault α) (f : α → Op σ β) (s : σ) :
    ((liftM x : Op σ α) >>= f).run s =
      match x with
      | .ok a => (f a).run s
      | .error e => (.error e, s) := by
  cases x <;> rfl

/-- A change of the state before a sequence. -/
theorem run_update_bind (g : σ → σ) (f : Unit → Op σ β) (s : σ) :
    ((update g : Op σ Unit) >>= f).run s = (f ()).run (g s) := rfl

/-- The state read before a sequence. -/
theorem run_state_bind (f : σ → Op σ β) (s : σ) :
    ((state : Op σ σ) >>= f).run s = (f s).run s := rfl

/-- Giving another result changes nothing of the state. -/
theorem state_bind_pure (x : Op σ α) (f : α → β) (s : σ) :
    ((x >>= fun a => pure (f a)).run s).2 = (x.run s).2 := by
  rw [run_bind]
  rcases x.run s with ⟨_ | _, _⟩ <;> rfl

/-- Giving another result gives that of the result. -/
theorem result_bind_pure (x : Op σ α) (f : α → β) (s : σ) :
    ((x >>= fun a => pure (f a)).run s).1 = (x.run s).1.map f := by
  rw [run_bind]
  rcases x.run s with ⟨_ | _, _⟩ <;> rfl

theorem run_onFault (x : Op σ α) (undo : σ → σ) (s : σ) :
    (x.onFault undo).run s =
      match x.run s with
      | (.ok a, t) => (.ok a, t)
      | (.error e, t) => (.error e, undo t) := rfl

theorem run_recover (x : Op σ α) (catches : Fault → Bool) (handle : Fault → Op σ α) (s : σ) :
    (x.recover catches handle).run s =
      match x.run s with
      | (.ok a, t) => (.ok a, t)
      | (.error e, t) => if catches e then (handle e).run t else (.error e, t) := rfl

/-! ## Results -/

/-- Every result of an operation has a property. -/
def Yields (x : Op σ α) (P : α → Prop) : Prop := ∀ s a t, x.run s = (.ok a, t) → P a

theorem yields_pure {P : α → Prop} {a : α} (h : P a) : (pure a : Op σ α).Yields P := by
  intro s b t hr
  cases hr
  exact h

theorem Yields.bind {x : Op σ α} {f : α → Op σ β} {P : α → Prop} {Q : β → Prop}
    (hx : x.Yields P) (hf : ∀ a, P a → (f a).Yields Q) : (x >>= f).Yields Q := by
  intro s b u hr
  obtain ⟨a, t, hx', hf'⟩ := run_bind_eq_ok hr
  exact hf a (hx s a t hx') t b u hf'

/-- What holds of a result that is already there, an operation yields. -/
theorem yields_liftM {r : Except Fault α} {P : α → Prop} (h : ∀ a, r = .ok a → P a) :
    (liftM r : Op σ α).Yields P := by
  intro s a t hr
  exact h a (Prod.mk.inj hr).1

/-- What the rest of a sequence yields, the whole sequence yields. -/
theorem yields_bind {x : Op σ α} {f : α → Op σ β} {Q : β → Prop}
    (hf : ∀ a, (f a).Yields Q) : (x >>= f).Yields Q :=
  Yields.bind (P := fun _ => True) (fun _ _ _ _ => trivial) fun a _ => hf a

theorem yields_ite {c : Prop} [Decidable c] {x y : Op σ α} {P : α → Prop}
    (hx : x.Yields P) (hy : y.Yields P) : (if c then x else y).Yields P := by
  split
  · exact hx
  · exact hy

end Cockpit.Op
