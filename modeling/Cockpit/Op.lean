import Cockpit.Fault

/-!
# Operations

An operation acts on a state and gives a result or a fault.  A fault does not
take back what happened before it, so every run ends in a state.

`Op.attempt` hands a fault over as a result, and `Op.recover` goes on after some
of them.  `Op.ensure` runs a closing step whatever happened.  `Op.on` runs an
operation on a part of a larger state.

The laws say what each of these does when it is run.
-/

namespace Cockpit

/-- An operation on states `σ` with results `α`. -/
def Op (σ α : Type) : Type := σ → Except Fault α × σ

namespace Op

variable {σ τ α β γ : Type}

/-- The outcome of an operation in a state, and the state after it. -/
def run (x : Op σ α) (s : σ) : Except Fault α × σ := x s

/-- A result, which leaves the state alone. -/
def result (a : α) : Op σ α := fun s => (.ok a, s)

/-- A fault, which leaves the state alone. -/
def stop (f : Fault) : Op σ α := fun s => (.error f, s)

/-- One operation after another.  The second does not run after a fault. -/
def andThen (x : Op σ α) (f : α → Op σ β) : Op σ β := fun s =>
  match x s with
  | (.ok a, s) => f a s
  | (.error e, s) => (.error e, s)

instance : Monad (Op σ) where
  pure := result
  bind := andThen

/-- A result or fault that is already there. -/
def ofExcept (x : Except Fault α) : Op σ α := fun s => (x, s)

/-- The state. -/
def state : Op σ σ := fun s => (.ok s, s)

/-- A change of the state. -/
def update (f : σ → σ) : Op σ Unit := fun s => (.ok (), f s)

instance : MonadLift (Except Fault) (Op σ) := ⟨ofExcept⟩

/-- An operation whose fault becomes a result. -/
def attempt (x : Op σ α) : Op σ (Except Fault α) := fun s => (.ok (x s).1, (x s).2)

/-- An operation with a closing change of the state, which happens after a fault too. -/
def ensure (x : Op σ α) (close : σ → σ) : Op σ α := fun s => ((x s).1, close (x s).2)

/-- An operation with a change of the state that happens only after a fault. -/
def onFault (x : Op σ α) (undo : σ → σ) : Op σ α := fun s =>
  match x s with
  | (.ok a, s) => (.ok a, s)
  | (.error e, s) => (.error e, undo s)

/-- An operation that goes on with another one after some faults. -/
def recover (x : Op σ α) (catches : Fault → Bool) (handle : Fault → Op σ α) : Op σ α := fun s =>
  match x s with
  | (.ok a, s) => (.ok a, s)
  | (.error e, s) => if catches e then handle e s else (.error e, s)

/-! ## Parts of a state -/

/-- A part of a state: how it is read and replaced. -/
structure Part (σ τ : Type) where
  get : σ → τ
  set : τ → σ → σ
  get_set : ∀ t s, get (set t s) = t := by intros; rfl
  set_get : ∀ s, set (get s) s = s := by intros; rfl
  set_set : ∀ t u s, set t (set u s) = set t s := by intros; rfl

/-- An operation on a part, as an operation on the whole. -/
def on (p : Part σ τ) (x : Op τ α) : Op σ α := fun s =>
  let (r, t) := x (p.get s)
  (r, p.set t s)

/-! ## Laws -/

@[ext] theorem ext {x y : Op σ α} (h : ∀ s, x.run s = y.run s) : x = y := funext h

@[simp] theorem run_pure (a : α) (s : σ) : (pure a : Op σ α).run s = (.ok a, s) := rfl

@[simp] theorem run_stop (f : Fault) (s : σ) : (stop f : Op σ α).run s = (.error f, s) := rfl

@[simp] theorem run_state (s : σ) : (state : Op σ σ).run s = (.ok s, s) := rfl

@[simp] theorem run_update (f : σ → σ) (s : σ) : (update f).run s = (.ok (), f s) := rfl

@[simp] theorem run_ofExcept (x : Except Fault α) (s : σ) :
    (ofExcept x : Op σ α).run s = (x, s) := rfl

theorem run_bind (x : Op σ α) (f : α → Op σ β) (s : σ) :
    (x >>= f).run s =
      match x.run s with
      | (.ok a, s) => (f a).run s
      | (.error e, s) => (.error e, s) := rfl

theorem run_bind_ok {x : Op σ α} {f : α → Op σ β} {s t : σ} {a : α}
    (h : x.run s = (.ok a, t)) : (x >>= f).run s = (f a).run t := by
  rw [run_bind, h]

theorem run_bind_error {x : Op σ α} {f : α → Op σ β} {s t : σ} {e : Fault}
    (h : x.run s = (.error e, t)) : (x >>= f).run s = (.error e, t) := by
  rw [run_bind, h]

@[simp] theorem run_attempt (x : Op σ α) (s : σ) :
    x.attempt.run s = (.ok (x.run s).1, (x.run s).2) := rfl

@[simp] theorem run_ensure (x : Op σ α) (close : σ → σ) (s : σ) :
    (x.ensure close).run s = ((x.run s).1, close (x.run s).2) := rfl

@[simp] theorem run_on (p : Part σ τ) (x : Op τ α) (s : σ) :
    (x.on p).run s = ((x.run (p.get s)).1, p.set (x.run (p.get s)).2 s) := rfl

theorem id_map (x : Op σ α) : id <$> x = x := by
  funext s
  change andThen x result s = x s
  unfold andThen result
  rcases x s with ⟨_ | _, _⟩ <;> rfl

theorem pure_bind (a : α) (f : α → Op σ β) : pure a >>= f = f a := rfl

theorem bind_assoc (x : Op σ α) (f : α → Op σ β) (g : β → Op σ γ) :
    x >>= f >>= g = x >>= fun a => f a >>= g := by
  funext s
  change andThen (andThen x f) g s = andThen x (fun a => andThen (f a) g) s
  unfold andThen
  rcases x s with ⟨_ | _, _⟩ <;> rfl

instance : LawfulMonad (Op σ) := LawfulMonad.mk' (Op σ) id_map pure_bind bind_assoc

end Op

end Cockpit
