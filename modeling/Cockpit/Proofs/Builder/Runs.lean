import Cockpit.Proofs.Builder.Calls

/-!
# Runs of blocks and splices

What each operation of a workshop does to it, as one equation for each: finding a
target, opening a block, a block around a body, taking commands over, a splice, building.
Later modules cite these and do not open the operations.
-/

namespace Cockpit

namespace Workshop

open Op

variable {id other : BuilderId} {w : Workshop}

/-! ## Changes of one builder -/

@[simp] theorem length_changeBuilder (id : BuilderId) (f : Builder → Builder) (w : Workshop) :
    (w.changeBuilder id f).benches.length = w.benches.length :=
  List.length_modify _ _ _

@[simp] theorem names_changeBuilder (id : BuilderId) (f : Builder → Builder) (w : Workshop) :
    (w.changeBuilder id f).names = w.names := rfl

theorem builder_changeBuilder_self (h : id < w.benches.length) (f : Builder → Builder) :
    (w.changeBuilder id f).builder id = f (w.builder id) :=
  builder_setBuilder_self h _

theorem builder_changeBuilder_of_ne (w : Workshop) (h : other ≠ id) (f : Builder → Builder) :
    (w.changeBuilder id f).builder other = w.builder other :=
  builder_setBuilder_of_ne w h _

/-- Two changes of one builder are one change. -/
theorem changeBuilder_changeBuilder (h : id < w.benches.length) (f g : Builder → Builder) :
    (w.changeBuilder id f).changeBuilder id g = w.changeBuilder id fun b => g (f b) := by
  rw [changeBuilder, builder_changeBuilder_self h]
  simp only [changeBuilder, setBuilder, List.modify_modify_eq]
  rfl

/-- A place without a bench stands for a new builder. -/
theorem builder_of_length_le (h : w.benches.length ≤ id) : w.builder id = {} := by
  rw [builder, bench, List.getElem?_eq_none h]
  rfl

/-! ## Targets -/

/-- The workshop with one more bench. -/
def withBench (b : Bench) (w : Workshop) : Workshop := { w with benches := w.benches ++ [b] }

theorem builder_withBench_of_lt (b : Bench) (h : id < w.benches.length) :
    (w.withBench b).builder id = w.builder id := by
  rw [builder, bench, withBench, List.getElem?_append_left h]
  rfl

theorem builder_withBench_self (b : Bench) (w : Workshop) :
    (w.withBench b).builder w.benches.length = b.builder := by
  rw [builder, bench, withBench, List.getElem?_concat_length]
  rfl

/-- A new builder that has done nothing stands where there was none before. -/
theorem parts_withBench {b : Bench} (hs : b.builder.stream = [])
    (hc : b.builder.openConditions = []) (id : BuilderId) (w : Workshop) :
    ((w.withBench b).builder id).stream = (w.builder id).stream ∧
      ((w.withBench b).builder id).openConditions = (w.builder id).openConditions := by
  by_cases hlt : id < w.benches.length
  · rw [builder_withBench_of_lt b hlt]
    exact ⟨rfl, rfl⟩
  · have hle : w.benches.length ≤ id := Nat.le_of_not_lt hlt
    rw [builder_of_length_le hle]
    by_cases he : id = w.benches.length
    · rw [he, builder_withBench_self, hs, hc]
      exact ⟨rfl, rfl⟩
    · have hgt : (w.withBench b).benches.length ≤ id := by
        rw [withBench, List.length_append]
        exact Nat.lt_of_le_of_ne hle (Ne.symm he)
      rw [builder_of_length_le hgt]
      exact ⟨rfl, rfl⟩

/-- A target is found under its name, or is made anew and has done nothing yet. -/
theorem find_cases (t : Target) (w : Workshop) :
    (∃ e, (find t).run w = (.error e, w)) ∨
    (∃ n id, (n, id) ∈ w.names ∧ (find t).run w = (.ok id, w)) ∨
    (∃ b : Bench, b.builder.stream = [] ∧ b.builder.openConditions = [] ∧
      (find t).run w = (.ok w.benches.length, w.withBench b)) := by
  cases t with
  | named n =>
      rw [find, run_state_bind]
      cases hl : w.names.lookup n with
      | none => exact Or.inl ⟨_, rfl⟩
      | some id =>
          refine Or.inr (Or.inl ⟨n, id, ?_, rfl⟩)
          obtain ⟨l₁, l₂, hn, -⟩ := List.lookup_eq_some_iff.mp hl
          rw [hn]
          exact List.mem_append_right _ List.mem_cons_self
  | fresh kind equipped strict fn args program =>
      rw [find]
      have made (xs : List Value) : ∃ b : Bench, b.builder.stream = [] ∧
          b.builder.openConditions = [] ∧
          (do
            let shared := (← state).airframe
            let airframe := if equipped then shared else none
            add ⟨{ kind, airframe, strict, fn, args := xs }, program⟩ : Op Workshop _).run w
              = (.ok w.benches.length, w.withBench b) := by
        exact ⟨_, rfl, rfl, rfl⟩
      by_cases ha : kind.asks = true
      · simp only [ha, if_true]
        cases hi : args.itemsIfSet with
        | error e => exact Or.inl ⟨e, rfl⟩
        | ok xs => exact Or.inr (Or.inr (made xs))
      · simp only [ha]
        exact Or.inr (Or.inr (made []))

/-! ## Blocks -/

/-- The workshop with a block of a builder opened. -/
def opened (id : BuilderId) (condition : Value) (opener : Command) (w : Workshop) : Workshop :=
  w.changeBuilder id fun b =>
    { b.append [opener] with openConditions := b.openConditions ++ [condition] }

theorem run_openBlock (id : BuilderId) (condition : Value) (opener : Command) (w : Workshop) :
    (openBlock id condition opener).run w =
      if (w.builder id).openConditions.any (·.same condition) then
        (.error (.openCondition condition), w)
      else (.ok (w.builder id).stream.length, w.opened id condition opener) := by
  rw [openBlock, read, bind_assoc, run_state_bind, pure_bind]
  split <;> rfl

/-- A block runs its body in the workshop with the block opened.  It is closed after
a result and cut out after a fault. -/
theorem run_block {h : BlockHead Value} {opener : Command} (body : Op Workshop Unit)
    (ho : h.opener = .ok opener)
    (hn : (w.builder id).openConditions.any (·.same h.condition) = false) :
    (block id h body).run w =
      match body.run (w.opened id h.condition opener) with
      | (.ok _, t) => (.ok (), (dropCondition id t).changeBuilder id (·.append [h.closer]))
      | (.error e, t) =>
        (.error e, dropCondition id (cutBack id (w.builder id).stream.length t)) := by
  rw [block, run_liftM_bind, ho]
  dsimp only
  rw [run_bind, run_openBlock, hn]
  simp only [Bool.false_eq_true, if_false]
  rw [run_bind, run_ensure, run_onFault]
  rcases body.run (w.opened id h.condition opener) with ⟨e | u, t⟩ <;> rfl

/-- A block that is not opened does nothing. -/
theorem run_block_error {h : BlockHead Value} (body : Op Workshop Unit)
    (hn : ∀ opener, h.opener = .ok opener →
      (w.builder id).openConditions.any (·.same h.condition) = true) :
    ∃ e, (block id h body).run w = (.error e, w) := by
  rw [block, run_liftM_bind]
  cases ho : h.opener with
  | error e => exact ⟨e, rfl⟩
  | ok opener =>
      dsimp only
      rw [run_bind, run_openBlock, hn opener ho]
      exact ⟨_, rfl⟩

/-- A block does nothing and fails, or opens and goes on with its body. -/
theorem run_block_cases (id : BuilderId) (h : BlockHead Value) (body : Op Workshop Unit)
    (w : Workshop) :
    (∃ e, (block id h body).run w = (.error e, w)) ∨
      ∃ opener, h.opener = .ok opener ∧
        (w.builder id).openConditions.any (·.same h.condition) = false ∧
        (block id h body).run w =
          match body.run (w.opened id h.condition opener) with
          | (.ok _, t) => (.ok (), (dropCondition id t).changeBuilder id (·.append [h.closer]))
          | (.error e, t) =>
            (.error e, dropCondition id (cutBack id (w.builder id).stream.length t)) := by
  by_cases hopens : ∃ opener, h.opener = .ok opener ∧
      (w.builder id).openConditions.any (·.same h.condition) = false
  · obtain ⟨opener, ho, hn⟩ := hopens
    exact Or.inr ⟨opener, ho, hn, run_block body ho hn⟩
  · refine Or.inl (run_block_error body fun opener ho => ?_)
    cases hany : (w.builder id).openConditions.any (·.same h.condition) with
    | true => rfl
    | false => exact absurd ⟨opener, ho, hany⟩ hopens

/-! ## Splices -/

/-- The workshop after a builder took the commands of another one over. -/
def takenOver (id other : BuilderId) (w : Workshop) : Workshop :=
  w.changeBuilder id (·.append (w.builder other).stream)

theorem builder_takenOver (other : BuilderId) (h : id < w.benches.length) :
    (w.takenOver id other).builder id = (w.builder id).append (w.builder other).stream :=
  builder_changeBuilder_self h _

/-- What is logged of commands that were taken over from a builder. -/
def takeOverReport (length : Nat) (kind : BuilderKind) : Log.Record :=
  ⟨.builder, .debug, s!"Added {length} commands from {kind.name}"⟩

/-- Commands are taken over unless there would be two queries, and that is logged. -/
theorem run_takeOver (id other : BuilderId) (w : Workshop) :
    (takeOver id other).run w =
      if 1 < (w.builder id).stream.queries + (w.builder other).stream.queries then
        (.error (.splicedQuery (w.builder other).kind.name), w)
      else (.ok (), { w.takenOver id other with
        journal := w.journal.add (takeOverReport
          ((w.takenOver id other).builder other).stream.length (w.builder other).kind) }) := by
  rw [takeOver, read, bind_assoc, run_state_bind, pure_bind, read, bind_assoc, run_state_bind,
    pure_bind]
  split
  · rfl
  · rfl

/-- The workshop in which a builder builds for another one that splices it. -/
def lent (id other : BuilderId) (w : Workshop) : Workshop :=
  let w := w.changeBuilder other Builder.clear
  w.changeBuilder other (lend (w.builder id))

theorem builder_lent_of_ne {i : BuilderId} (h : i ≠ other) :
    (w.lent id other).builder i = w.builder i := by
  rw [lent, builder_changeBuilder_of_ne _ h, builder_changeBuilder_of_ne _ h]

theorem builder_lent_self (h : id ≠ other) (hother : other < w.benches.length) :
    (w.lent id other).builder other = lend (w.builder id) (w.builder other).clear := by
  rw [lent, builder_changeBuilder_self, builder_changeBuilder_self hother,
    builder_changeBuilder_of_ne w h]
  rwa [length_changeBuilder]

/-- A splice builds the other builder on loan, gives its own things back, and takes
its commands over unless the build failed. -/
theorem run_splice (build : Building) (id other : BuilderId) (context : Value) (w : Workshop) :
    (splice build id other context).run w =
      let before := (w.changeBuilder other Builder.clear).builder other
      match (build other context).run (w.lent id other) with
      | (.ok _, t) => (takeOver id other).run (t.changeBuilder other (giveBack before))
      | (.error e, t) => (.error e, t.changeBuilder other (giveBack before)) := by
  have h : (splice build id other context).run w =
      ((build other context).ensure (changeBuilder other
          (giveBack ((w.changeBuilder other Builder.clear).builder other))) >>=
        fun _ => takeOver id other).run (w.lent id other) := rfl
  rw [h, run_bind, run_ensure]
  rcases (build other context).run (w.lent id other) with ⟨e | u, t⟩ <;> rfl

end Workshop

/-! ## Building -/

open Op

/-- How a builder builds by its kind. -/
theorem Builder.run_build (depth : Nat) (id : BuilderId) (context : Value) (w : Workshop) :
    (Builder.build (depth + 1) id context).run w =
      match (w.builder id).kind with
      | .plain => (.error (.noBuild BuilderKind.plain.name), w)
      | .setup => (.ok (), w.changeBuilder id fun b => b.append b.setupCommands)
      | .teardown => (.ok (), w.changeBuilder id (·.append teardownCommands))
      | .query => (Workshop.addOwnQuery id).run w
      | .script => (Program.run (Builder.build depth) id context (w.bench id).program).run w
      | .scriptQuery =>
        (Program.run (Builder.build depth) id context (w.bench id).program >>=
          fun _ => Workshop.addOwnQuery id).run w := by
  rw [Builder.build, run_state_bind, Workshop.builder]
  dsimp only
  cases hk : (w.bench id).builder.kind <;> rfl

end Cockpit
