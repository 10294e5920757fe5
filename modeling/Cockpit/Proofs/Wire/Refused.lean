import Cockpit.Stream

/-!
# Streams that cannot be written

A command can be built with a field of any type, and fails when it is written.
`Stream.framed_fails` says that this is the only way in which a stream fails to be
written: a field that must be a number is none or has no whole value, or a command has
no payload at all.
-/

namespace Cockpit

/-! ## Faults of computations -/

/-- Every fault of a computation has a property. -/
def FailsBy {α : Type} (P : Fault → Prop) (x : Except Fault α) : Prop := ∀ f, x = .error f → P f

section FailsBy

variable {α β : Type} {P : Fault → Prop} {x : Except Fault α}

theorem failsBy_ok (a : α) : FailsBy P (.ok a) := nofun

theorem failsBy_error {f : Fault} (h : P f) : FailsBy P (.error f : Except Fault α) := by
  intro g hg
  cases hg
  exact h

theorem FailsBy.bind {g : α → Except Fault β} (hx : FailsBy P x) (hg : ∀ a, FailsBy P (g a)) :
    FailsBy P (x >>= g) := by
  intro f hf
  cases x with
  | error e =>
      cases hf
      exact hx f rfl
  | ok a => exact hg a f hf

theorem FailsBy.map (hx : FailsBy P x) (g : α → β) : FailsBy P (x.map g) := by
  intro f hf
  cases x with
  | error e =>
      cases hf
      exact hx f rfl
  | ok a => cases hf

theorem failsBy_ite {c : Prop} [Decidable c] {y : Except Fault α} (hx : FailsBy P x)
    (hy : FailsBy P y) : FailsBy P (if c then x else y) := by
  split
  · exact hx
  · exact hy

theorem failsBy_mapM {f : α → Except Fault β} (hf : ∀ a, FailsBy P (f a)) (xs : List α) :
    FailsBy P (xs.mapM f) := by
  induction xs with
  | nil => exact failsBy_ok []
  | cons x xs ih =>
      rw [List.mapM_cons]
      exact (hf x).bind fun _ => ih.bind fun _ => failsBy_ok _

end FailsBy

/-! ## Fields -/

/-- A fault says that a field has the wrong type or form, or that there is nothing to
write. -/
def Fault.IsOfField (f : Fault) : Prop :=
  f.isConversion = true ∨ f = .overflow ∨ f = .noPayload

namespace Value

theorem toInt_fails (v : Value) : FailsBy Fault.IsOfField v.toInt := by
  cases v with
  | float x =>
      cases x with
      | nan => exact failsBy_error (Or.inl rfl)
      | inf b => exact failsBy_error (Or.inr (Or.inl rfl))
      | finite b n => exact failsBy_ok _
  | text s =>
      rw [toInt]
      cases Number.readInt s with
      | ok n => exact failsBy_ok n
      | error e => cases e <;> exact failsBy_error (Or.inl rfl)
  | bool b => exact failsBy_ok _
  | int n => exact failsBy_ok n
  | null => exact failsBy_error (Or.inl rfl)
  | list xs => exact failsBy_error (Or.inl rfl)
  | object es => exact failsBy_error (Or.inl rfl)

theorem isPositive_fails (v : Value) : FailsBy Fault.IsOfField v.isPositive := by
  refine FailsBy.map ?_ _
  rw [toScalar]
  cases v.scalar? with
  | none => exact failsBy_error (Or.inl rfl)
  | some a => exact failsBy_ok a

end Value

/-! ## Commands and streams -/

namespace Command

theorem waitPayload_fails (delay : Value) : FailsBy Fault.IsOfField (waitPayload delay) :=
  delay.toInt_fails.map _

theorem timeoutEntry_fails (timeout : Value) :
    FailsBy Fault.IsOfField (timeoutEntry timeout) :=
  failsBy_ite (timeout.toInt_fails.map _) (failsBy_ok [])

theorem payload_fails (c : Command) : FailsBy Fault.IsOfField c.payload := by
  cases c with
  | blank => exact failsBy_error (Or.inr (Or.inr rfl))
  | action p =>
      refine p.device.toInt_fails.bind fun _ => p.code.toInt_fails.bind fun _ => ?_
      exact failsBy_ite ((waitPayload_fails p.delay).bind fun _ => failsBy_ok _) (failsBy_ok _)
  | wait d => exact waitPayload_fails d
  | openWhile c e t args => exact (timeoutEntry_fails t).bind fun _ => failsBy_ok _
  | _ => exact failsBy_ok _

theorem toObject_fails (c : Command) : FailsBy Fault.IsOfField c.toObject :=
  c.payload_fails.map _

theorem trailer_fails (c : Command) : FailsBy Fault.IsOfField c.trailer := by
  rw [trailer]
  cases c.postWait? with
  | none => exact failsBy_ok []
  | some w =>
      refine w.isPositive_fails.bind fun p => failsBy_ite ?_ (failsBy_ok [])
      exact (toObject_fails _).bind fun _ => failsBy_ok _

theorem write_fails (c : Command) : FailsBy Fault.IsOfField c.write :=
  (c.toObject_fails.bind fun _ => c.trailer_fails.bind fun _ => failsBy_ok _).map _

end Command

/-- A stream fails to be written only because of a field of a command. -/
theorem Stream.framed_fails (s : Stream) : FailsBy Fault.IsOfField s.framed :=
  ((failsBy_mapM Command.write_fails s).map _).map _

end Cockpit
