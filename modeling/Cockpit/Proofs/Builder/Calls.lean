import Cockpit.Builder.Run
import Cockpit.Proofs.Op.Outcome

/-!
# What a call does to a builder

`Builder.apply_cases` lists the ways in which a call can succeed.  It empties the
stream, cuts it, sets the strictness, or appends the commands of the call.
`Builder.commandsOf_yields_drawn` lists what these commands can be.

A call changes nothing of a workshop but the builder that it is made on and the
journal (`Workshop.run_call`).
-/

namespace Cockpit

open Op

/-- One name is required as it is looked up. -/
theorem Device.require_singleton (d : Device) (name : Value) :
    d.require [name] =
      match d.find? name with
      | .ok (some _) => .ok ()
      | .ok none => .error (d.unknown [name])
      | .error e => .error e := by
  have hmissing : ([name].filterM fun n => (d.contains n).map not) =
      match d.find? name with
      | .ok (some _) => .ok []
      | .ok none => .ok [name]
      | .error e => .error e := by
    simp only [List.filterM, List.filterAuxM, contains]
    cases d.find? name with
    | error e => rfl
    | ok found => cases found <;> rfl
  rw [require, hmissing]
  cases d.find? name with
  | error e => rfl
  | ok found => cases found <;> rfl

namespace Builder

variable {b b' : Builder} {c : Call Value} {r : Reply} {j j' : Log.Journal}

/-- How a call that succeeds leaves a builder. -/
theorem apply_cases (h : (b.apply c).run j = (.ok (b', r), j')) :
    (c = .clear ∧ b' = b.clear) ∨
    (∃ n s, c = .truncate n ∧ b.stream.truncate n = .ok s ∧ b' = { b with stream := s }) ∨
    (∃ v, c = .setStrict v ∧ b' = { b with strict := v.isSet }) ∨
    (∃ cs, (b.commandsOf c).run j = (.ok cs, j') ∧ b' = b.append cs) := by
  have appended {f : List Command → Reply}
      (h : (do let cs ← b.commandsOf c; return (b.append cs, f cs) : Op Log.Journal _).run j
        = (.ok (b', r), j')) :
      ∃ cs, (b.commandsOf c).run j = (.ok cs, j') ∧ b' = b.append cs := by
    obtain ⟨cs, t, hc, hr⟩ := run_bind_eq_ok h
    cases hr
    exact ⟨cs, hc, rfl⟩
  cases c with
  | clear =>
      cases h
      exact Or.inl ⟨rfl, rfl⟩
  | truncate n =>
      obtain ⟨s, t, hs, hr⟩ := run_bind_eq_ok h
      rw [run_liftM] at hs
      obtain ⟨hn, -⟩ := Prod.mk.inj hs
      cases hr
      exact Or.inr (Or.inl ⟨n, s, rfl, hn, rfl⟩)
  | setStrict v =>
      cases h
      exact Or.inr (Or.inr (Or.inl ⟨v, rfl, rfl⟩))
  | device n =>
      obtain ⟨d, t, hd, hr⟩ := run_bind_eq_ok h
      obtain ⟨-, rfl⟩ := Prod.mk.inj hd
      cases hr
      exact Or.inr (Or.inr (Or.inr ⟨[], rfl, by simp [append]⟩))
  | commands =>
      cases h
      exact Or.inr (Or.inr (Or.inr ⟨[], rfl, by simp [append]⟩))
  | misuse d =>
      cases d with
      | none => cases h
      | some d =>
          obtain ⟨_, _, _, hr⟩ := run_bind_eq_ok h
          cases hr
  | _ => exact Or.inr (Or.inr (Or.inr (appended h)))

/-- A query that a builder may add is the only one of its stream. -/
theorem queryCommand_eq_ok {fn args : Value} {q : Command} (h : b.queryCommand fn args = .ok q) :
    b.stream.queries = 0 ∧ ∃ xs, args.arguments = .ok xs ∧ q = .query fn xs := by
  unfold queryCommand at h
  split at h
  · cases h
  · rename_i hq
    obtain ⟨xs, ha, h⟩ := exists_of_bind_ok h
    cases h
    exact ⟨Decidable.not_not.mp hq, xs, ha, rfl⟩

/-- The commands of a query call are its query. -/
theorem run_query (b : Builder) (fn args : Value) (j : Log.Journal) :
    (b.commandsOf (.query fn args)).run j = ((b.queryCommand fn args).map fun q => [q], j) := by
  rw [commandsOf, run_liftM_bind]
  cases b.queryCommand fn args <;> rfl

/-- A builder with a query refuses another one. -/
theorem run_query_refused (hq : b.stream.queries ≠ 0) (fn args : Value) (j : Log.Journal) :
    (b.commandsOf (.query fn args)).run j = (.error (.secondQuery fn), j) := by
  rw [run_query, queryCommand, if_pos hq]
  rfl

/-- A builder without a query takes one whose arguments can be read. -/
theorem run_query_taken {args : Value} {xs : List String} (hq : b.stream.queries = 0)
    (ha : args.arguments = .ok xs) (fn : Value) (j : Log.Journal) :
    (b.commandsOf (.query fn args)).run j = (.ok [.query fn xs], j) := by
  rw [run_query, queryCommand, if_neg (Decidable.not_not.mpr hq), ha]
  rfl

/-- The query of a builder is the only one of its stream. -/
theorem addOwnQuery_eq_ok (h : b.addOwnQuery = .ok b') :
    b.stream.queries = 0 ∧ ∃ xs, b' = b.append [.query b.fn xs] := by
  unfold addOwnQuery at h
  split at h
  · cases h
  · obtain ⟨q, hq, h⟩ := exists_of_bind_ok h
    cases h
    obtain ⟨hn, xs, -, rfl⟩ := queryCommand_eq_ok hq
    exact ⟨hn, xs, rfl⟩

/-! ## Commands of calls -/

/-- What a call can append to a builder: presses, a single command, or the first query,
which only a query call appends. -/
inductive Drawn (b : Builder) (c : Call Value) : Stream → Prop where
  | presses (ps : List Press) : Drawn b c (ps.map .action)
  | wait (t : Value) : Drawn b c [.wait t]
  | marker (m : Value) : Drawn b c [.marker m]
  | abort (m : Value) : Drawn b c [.abort m]
  | exec (fn : Value) (xs : List String) (w : Value) : Drawn b c [.exec fn xs w]
  | query {fn args : Value} (hc : c = .query fn args) (xs : List String)
      (h : b.stream.queries = 0) : Drawn b c [.query fn xs]

theorem drawn_nil (b : Builder) (c : Call Value) : b.Drawn c [] := .presses []

theorem waitCommand_yields_drawn {σ : Type} (b : Builder) (c : Call Value) (w : Value) :
    (liftM (waitCommand w) : Op σ (List Command)).Yields (b.Drawn c) := by
  refine yields_liftM fun cs h => ?_
  obtain ⟨p, -, h⟩ := exists_of_bind_ok h
  cases h
  split
  · exact .wait w
  · exact drawn_nil b c

theorem actionCommands_yields_drawn (b : Builder) (c : Call Value) (d : Device)
    (ns : List Value) (w : Value) : (b.actionCommands d ns w).Yields (b.Drawn c) := by
  refine yields_bind fun ps => yields_ite (waitCommand_yields_drawn b c w) ?_
  refine yields_bind fun p => yields_ite ?_ (yields_pure (.presses ps))
  exact yields_bind fun qs => yields_pure (.presses qs)

/-- Every call appends presses, a single command, or the first query. -/
theorem commandsOf_yields_drawn (b : Builder) (c : Call Value) :
    (b.commandsOf c).Yields (b.Drawn c) := by
  have hactions := actionCommands_yields_drawn b c
  have hnil : (pure [] : Op Log.Journal (List Command)).Yields (b.Drawn c) :=
    yields_pure (drawn_nil b c)
  cases c with
  | action d n w => exact yields_bind fun _ => yields_bind fun _ => yields_pure (.presses _)
  | customAction d n x y t w =>
      exact yields_bind fun _ => yields_bind fun _ => yields_bind fun _ => yields_pure (.presses _)
  | actions d ns ps w =>
      exact yields_bind fun _ => yields_bind fun _ => yields_bind fun _ => hactions _ _ _
  | repeatAction d n c w =>
      refine yields_bind fun _ => yields_bind fun _ => yields_ite hnil ?_
      exact yields_bind fun _ => hactions _ _ _
  | wait t => exact waitCommand_yields_drawn b _ t
  | marker m => exact yields_pure (.marker m)
  | abort m => exact yields_pure (.abort m)
  | errorAbort m => exact yields_pure (.abort _)
  | exec fn args w => exact yields_bind fun _ => yields_bind fun _ => yields_pure (.exec _ _ _)
  | query fn args =>
      refine Yields.bind (P := fun q => b.Drawn _ [q]) ?_ fun q hq => yields_pure hq
      intro s q t h
      obtain ⟨hn, xs, -, rfl⟩ := queryCommand_eq_ok (Prod.mk.inj h).1
      exact .query rfl xs hn
  | typeText d v w => exact yields_bind fun _ => yields_bind fun _ => hactions _ _ _
  | typeCoordinate d v w => exact yields_bind fun _ => yields_bind fun _ => hactions _ _ _
  | typeNumber d v e s c w =>
      refine yields_bind fun _ => yields_ite hnil ?_
      exact yields_bind fun _ => hactions _ _ _
  | _ => exact hnil

end Builder

/-- A block is opened by the command of its kind.  Only a loop has a bound, which is clamped. -/
theorem BlockHead.opener_cases {h : BlockHead Value} {x : Command} (hx : h.opener = .ok x) :
    (h.kind = .onceIf ∧ ∃ xs, x = .openIf h.condition h.expected xs) ∨
    (h.kind = .loopWhile ∧ ∃ u xs, h.timeout.clampWait = .ok u ∧
      x = .openWhile h.condition h.expected u xs) := by
  rw [opener] at hx
  split at hx
  next hk =>
    obtain ⟨xs, -, hx⟩ := exists_of_bind_ok hx
    cases hx
    exact Or.inl ⟨hk, xs, rfl⟩
  next hk =>
    obtain ⟨u, hu, hx⟩ := exists_of_bind_ok hx
    obtain ⟨xs, -, hx⟩ := exists_of_bind_ok hx
    cases hx
    exact Or.inr ⟨hk, u, xs, hu, rfl⟩

namespace Workshop

/-- An operation that only logs changes nothing but the journal. -/
theorem run_logged {α : Type} (x : Op Log.Journal α) (w : Workshop) :
    (logged x).run w = ((x.run w.journal).1, { w with journal := (x.run w.journal).2 }) := rfl

/-- A call on a builder of a workshop: what it makes of the builder, if it succeeds. -/
theorem run_call (id : BuilderId) (c : Call Value) (w : Workshop) :
    (call id c).run w =
      match ((w.builder id).apply c).run w.journal with
      | (.ok (b, r), j) => (.ok r, ({ w with journal := j } : Workshop).setBuilder id b)
      | (.error e, j) => (.error e, { w with journal := j }) := by
  rw [call, read, bind_assoc, run_state_bind, pure_bind, run_bind, run_logged]
  rcases ((w.builder id).apply c).run w.journal with ⟨e | ⟨b, r⟩, j⟩ <;> rfl

end Workshop

end Cockpit
