import Cockpit.Proofs.Builder.Runs
import Cockpit.Proofs.Op.Preserves

/-!
# At most one query in a stream

`Workshop.OneQuery w` says that no builder of a workshop has two queries in its stream.
Two things add a query to a stream: a call, which looks at the stream first, and a splice,
which looks at both streams after the other builder has built.  All else appends no query
or drops commands.

`Step.run_oneQuery` and `Builder.build_oneQuery` say that running steps and building
preserve this, from whatever workshop and to whatever depth.
-/

namespace Cockpit

open Op

/-! ## Streams -/

namespace Stream

variable {s t : Stream}

/-- Dropping commands adds no query. -/
theorem queries_le_of_sublist (h : List.Sublist s t) : s.queries ≤ t.queries := h.countP_le

theorem queries_actions (ps : List Press) : queries (ps.map Command.action) = 0 := by
  rw [queries, List.countP_eq_zero]
  intro c hc
  obtain ⟨p, -, rfl⟩ := List.mem_map.mp hc
  exact nofun

/-- Truncating keeps commands of the stream in order. -/
theorem sublist_of_truncate {n : Value} (h : t.truncate n = .ok s) : List.Sublist s t := by
  unfold truncate at h
  split at h
  · cases h
    exact List.nil_sublist t
  · obtain ⟨i, -, h⟩ := Op.exists_of_bind_ok h
    cases h
    exact List.take_sublist _ t

theorem queries_truncate {n : Value} (h : t.truncate n = .ok s) : s.queries ≤ t.queries :=
  queries_le_of_sublist (sublist_of_truncate h)

end Stream

namespace Builder

variable {b b' : Builder}

/-- Only a query call appends a query. -/
theorem Drawn.queries_eq_zero {c : Call Value} {cs : Stream} (h : b.Drawn c cs)
    (hc : ∀ fn args, c ≠ .query fn args) : cs.queries = 0 := by
  cases h with
  | presses ps => exact Stream.queries_actions ps
  | query hq _ _ => exact absurd hq (hc _ _)
  | wait _ => rfl
  | marker _ => rfl
  | abort _ => rfl
  | exec _ _ _ => rfl

/-- What a call appends leaves at most one query in the stream. -/
theorem Drawn.queries_le {c : Call Value} {cs : Stream} (h : b.Drawn c cs)
    (hb : b.stream.queries ≤ 1) : (b.append cs).stream.queries ≤ 1 := by
  rw [append, Stream.queries_append]
  cases h with
  | presses ps =>
      rw [Stream.queries_actions]
      exact hb
  | query _ xs hn =>
      rw [hn]
      exact Nat.le_refl 1
  | wait _ => exact hb
  | marker _ => exact hb
  | abort _ => exact hb
  | exec _ _ _ => exact hb

/-- A call leaves at most one query in the stream. -/
theorem queries_apply {c : Call Value} {r : Reply} {j j' : Log.Journal}
    (h : (b.apply c).run j = (.ok (b', r), j')) (hb : b.stream.queries ≤ 1) :
    b'.stream.queries ≤ 1 := by
  rcases apply_cases h with ⟨-, rfl⟩ | ⟨n, s, -, hs, rfl⟩ | ⟨v, -, rfl⟩ | ⟨cs, hcs, rfl⟩
  · exact Nat.zero_le 1
  · exact Nat.le_trans (Stream.queries_truncate hs) hb
  · exact hb
  · exact (commandsOf_yields_drawn b c _ _ _ hcs).queries_le hb

theorem queries_opener {h : BlockHead Value} {c : Command} (hc : h.opener = .ok c) :
    Stream.queries [c] = 0 := by
  rcases BlockHead.opener_cases hc with ⟨-, xs, rfl⟩ | ⟨-, t, xs, -, rfl⟩
  · rfl
  · rfl

theorem queries_closer (h : BlockHead Value) : Stream.queries [h.closer] = 0 := by
  unfold BlockHead.closer
  split
  · rfl
  · rfl

end Builder

/-! ## Workshops -/

namespace Workshop

variable {w w' : Workshop} {id other i : BuilderId} {f : Builder → Builder}

/-- Whether no builder has two queries in its stream. -/
def OneQuery (w : Workshop) : Prop := ∀ id, (w.builder id).stream.queries ≤ 1

theorem builder_congr (h : w'.benches = w.benches) (id : BuilderId) :
    w'.builder id = w.builder id := by
  rw [builder, bench, h, builder, bench]

theorem OneQuery.of_benches (h : w.OneQuery) (hb : w'.benches = w.benches) : w'.OneQuery := by
  intro id
  rw [builder_congr hb]
  exact h id

/-- A change of a builder changes no other one, and none where there is none. -/
theorem builder_changeBuilder_cases (id : BuilderId) (f : Builder → Builder) (w : Workshop)
    (i : BuilderId) :
    (w.changeBuilder id f).builder i = w.builder i ∨
      (i = id ∧ (w.changeBuilder id f).builder i = f (w.builder id)) := by
  by_cases hi : i = id
  · subst hi
    by_cases hlt : i < w.benches.length
    · exact Or.inr ⟨rfl, builder_changeBuilder_self hlt f⟩
    · have hle : w.benches.length ≤ i := Nat.le_of_not_lt hlt
      refine Or.inl ?_
      rw [builder_of_length_le hle, builder_of_length_le]
      rwa [length_changeBuilder]
  · exact Or.inl (builder_changeBuilder_of_ne w hi f)

theorem OneQuery.change (h : w.OneQuery) (hf : (f (w.builder id)).stream.queries ≤ 1) :
    (w.changeBuilder id f).OneQuery := by
  intro i
  rcases builder_changeBuilder_cases id f w i with hi | ⟨-, hi⟩
  · rw [hi]
    exact h i
  · rw [hi]
    exact hf

theorem OneQuery.append (h : w.OneQuery) {cs : Stream} (hc : cs.queries = 0) (id : BuilderId) :
    (w.changeBuilder id (·.append cs)).OneQuery := by
  refine h.change ?_
  rw [Builder.append, Stream.queries_append, hc]
  exact h id

theorem OneQuery.withBench (h : w.OneQuery) {b : Bench} (hs : b.builder.stream = [])
    (hc : b.builder.openConditions = []) : (w.withBench b).OneQuery := by
  intro id
  rw [(parts_withBench hs hc id w).1]
  exact h id

/-- The workshop with a block opened. -/
theorem OneQuery.opened (h : w.OneQuery) {head : BlockHead Value} {c : Command}
    (hc : head.opener = .ok c) (id : BuilderId) (condition : Value) :
    (w.opened id condition c).OneQuery := by
  refine h.change ?_
  rw [Builder.append, Stream.queries_append, Builder.queries_opener hc]
  exact h id

/-- The workshop in which a builder builds on loan. -/
theorem OneQuery.lent (h : w.OneQuery) (id other : BuilderId) : (w.lent id other).OneQuery := by
  have hclear : (w.changeBuilder other Builder.clear).OneQuery := h.change (Nat.zero_le 1)
  exact hclear.change (Nat.zero_le 1)

/-! ### Operations -/

theorem preserves_logged {α : Type} (x : Op Log.Journal α) : (logged x).Preserves OneQuery :=
  preserves_on x fun _ _ h => h.of_benches rfl

theorem call_oneQuery (id : BuilderId) (c : Call Value) : (call id c).Preserves OneQuery := by
  intro w hw
  rw [run_call]
  rcases h : ((w.builder id).apply c).run w.journal with ⟨e | ⟨b, r⟩, j⟩
  · exact hw.of_benches rfl
  · have hb := Builder.queries_apply h (hw id)
    have hj : ({ w with journal := j } : Workshop).OneQuery := hw.of_benches rfl
    exact hj.change (f := fun _ => b) hb

theorem find_oneQuery (t : Target) : (find t).Preserves OneQuery := by
  intro w hw
  rcases find_cases t w with ⟨e, h⟩ | ⟨n, id, -, h⟩ | ⟨b, hs, hc, h⟩
  · rw [h]
    exact hw
  · rw [h]
    exact hw
  · rw [h]
    exact hw.withBench hs hc

theorem addOwnQuery_oneQuery (id : BuilderId) : (addOwnQuery id).Preserves OneQuery := by
  intro w hw
  rw [addOwnQuery, read, bind_assoc, run_state_bind, pure_bind, run_liftM_bind]
  cases hq : (w.builder id).addOwnQuery with
  | error e => exact hw
  | ok b =>
      obtain ⟨hn, xs, rfl⟩ := Builder.addOwnQuery_eq_ok hq
      refine hw.change ?_
      rw [Builder.append, Stream.queries_append, hn]
      exact Nat.le_refl 1

/-- A block preserves what its body preserves. -/
theorem block_oneQuery {body : Op Workshop Unit} (hbody : body.Preserves OneQuery)
    (id : BuilderId) (h : BlockHead Value) : (block id h body).Preserves OneQuery := by
  intro w hw
  have hdrop : ∀ w, OneQuery w → OneQuery (dropCondition id w) := by
    intro w hw
    exact OneQuery.change hw (hw id)
  rcases run_block_cases id h body w with ⟨e, hr⟩ | ⟨c, hc, -, hrun⟩
  · rw [hr]
    exact hw
  · have ht := hbody _ (hw.opened hc id h.condition)
    rw [hrun]
    rcases hr : body.run (w.opened id h.condition c) with ⟨e | u, t⟩
    · rw [hr] at ht
      refine hdrop _ (ht.change ?_)
      exact Nat.le_trans (Stream.queries_le_of_sublist (List.take_sublist _ _)) (ht id)
    · rw [hr] at ht
      exact (hdrop t ht).append (Builder.queries_closer h) id

theorem takeOver_oneQuery (id other : BuilderId) : (takeOver id other).Preserves OneQuery := by
  intro w hw
  rw [run_takeOver]
  split
  · exact hw
  · rename_i hq
    have ht : (w.takenOver id other).OneQuery := by
      refine hw.change ?_
      rw [Builder.append, Stream.queries_append]
      exact Nat.le_of_not_lt hq
    exact ht.of_benches rfl

/-- A splice preserves what building preserves. -/
theorem splice_oneQuery {build : Building}
    (hb : ∀ id context, (build id context).Preserves OneQuery) (id other : BuilderId) (context : Value) :
    (splice build id other context).Preserves OneQuery := by
  intro w hw
  have ht := hb other context _ (hw.lent id other)
  have hback : ∀ before w, OneQuery w → OneQuery (w.changeBuilder other (giveBack before)) := by
    intro before w hw
    exact OneQuery.change hw (hw other)
  rw [run_splice]
  rcases hr : (build other context).run (w.lent id other) with ⟨e | u, t⟩
  · rw [hr] at ht
    exact hback _ t ht
  · rw [hr] at ht
    exact takeOver_oneQuery id other _ (hback _ t ht)

end Workshop

/-! ## Steps and building -/

open Workshop

variable {build : Building}

mutual

/-- A step preserves what building preserves. -/
theorem Step.run_oneQuery (hb : ∀ id context, (build id context).Preserves OneQuery) :
    ∀ (s : Step) (id : BuilderId) (context : Value), (s.run build id context).Preserves OneQuery
  | .call c, id, context => by
      rw [Step.run]
      exact (preserves_liftM _).bind fun c => call_oneQuery id c
  | .block head body, id, context => by
      rw [Step.run]
      have hbody := Program.run_oneQuery hb body id context
      refine (preserves_liftM _).bind fun h => ?_
      exact (block_oneQuery hbody id h).bind fun _ => preserves_pure _
  | .splice target c, id, context => by
      rw [Step.run]
      refine (find_oneQuery target).bind fun other => (preserves_liftM _).bind fun context' => ?_
      exact (splice_oneQuery hb id other context').bind fun _ => preserves_pure _
  | .build c, id, context => by
      rw [Step.run]
      refine (preserves_liftM _).bind fun context' => ?_
      exact (hb id context').bind fun _ => preserves_pure _
  | .raise f, id, context => by
      rw [Step.run]
      exact preserves_stop f
  | .attempt body, id, context => by
      rw [Step.run]
      refine (Program.run_oneQuery hb body id context).attempt.bind fun r => ?_
      have hnote : (Workshop.note r).Preserves OneQuery := preserves_update fun w hw =>
        hw.of_benches rfl
      exact hnote.bind fun _ => preserves_pure _
  | .on target step, id, context => by
      rw [Step.run]
      exact (find_oneQuery target).bind fun other => Step.run_oneQuery hb step other context
  | .inspect target, id, context => by
      rw [Step.run]
      exact (find_oneQuery target).bind fun other => preserves_state.bind fun _ => preserves_pure _
termination_by structural s => s

/-- Steps in order preserve it too. -/
theorem Program.run_oneQuery (hb : ∀ id context, (build id context).Preserves OneQuery) :
    ∀ (ss : List Step) (id : BuilderId) (context : Value),
      (Program.run build id context ss).Preserves OneQuery
  | [], id, context => by
      rw [Program.run]
      exact preserves_pure ()
  | s :: ss, id, context => by
      rw [Program.run]
      exact (Step.run_oneQuery hb s id context).bind fun _ => Program.run_oneQuery hb ss id context
termination_by structural ss => ss

end

/-- Building preserves it, to whatever depth builders build inside one another. -/
theorem Builder.build_oneQuery (depth : Nat) :
    ∀ id context, (Builder.build depth id context).Preserves OneQuery := by
  induction depth with
  | zero => exact fun _ _ => preserves_stop _
  | succ depth ih =>
      intro id context
      have hp (w : Workshop) := Program.run_oneQuery ih (w.bench id).program id context
      intro w hw
      rw [run_build]
      cases hk : (w.builder id).kind with
      | plain => exact hw
      | setup =>
          have hc : Stream.queries (w.builder id).setupCommands = 0 := rfl
          exact hw.append hc id
      | teardown =>
          have hc : Stream.queries teardownCommands = 0 := rfl
          exact hw.append hc id
      | query => exact addOwnQuery_oneQuery id w hw
      | script => exact hp w w hw
      | scriptQuery => exact (hp w).bind (fun _ => addOwnQuery_oneQuery id) w hw

end Cockpit
