import Cockpit.Proofs.Blocks.Keeping

/-!
# Orderly runs keep frames

An orderly step, however it ends, leaves every builder in the frame that it was in.
`Step.run_keeps` and `Program.run_keeps` say this of the steps of a builder, given
that building keeps frames.  `Builder.build_keeps` is the induction on the depth of
building, and `Workshop.Reached.framed` the one on the calls from outside.

`Workshop.streams_wellNested` is the result: whenever no builder is busy, every
stream is well nested, and the name of a condition finds the end of its block.
-/

namespace Cockpit

open Op Workshop

variable {build : Building} {inner : Discipline} {busy : List BuilderId}
  {F : BuilderId → Frame} {id : BuilderId} {context : Value} {w : Workshop}

/-- Whether building keeps frames as far as it is orderly. -/
def Building.Keeping (build : Building) (inner : Discipline) : Prop :=
  ∀ (busy : List BuilderId) (F : BuilderId → Frame) (id : BuilderId) (context : Value)
    (w : Workshop), w.Framed F → Idle busy F → id < w.benches.length →
    inner busy id context w = true → Keeps busy F w ((build id context).run w).2

/-! ## Steps -/

/-- The body of a block runs in the workshop with the block opened. -/
theorem Step.run_openCondition {head : BlockHead Operand} {h : BlockHead Value} {opener : Command}
    (hh : head.resolve context = .ok h) (ho : h.opener = .ok opener)
    (hn : (w.builder id).openConditions.any (·.same h.condition) = false) :
    (openCondition id context head).run w = (.ok h.condition, w.opened id h.condition opener) := by
  rw [openCondition, run_liftM_bind, hh]
  dsimp only
  rw [run_liftM_bind, ho]
  dsimp only
  rw [run_bind, run_openBlock, hn]
  rfl

mutual

/-- A step keeps frames, however it ends. -/
theorem Step.run_keeps (hb : build.Keeping inner) :
    ∀ (s : Step) {busy : List BuilderId} {F : BuilderId → Frame} {id : BuilderId}
      {context : Value} {w : Workshop}, w.Framed F → Idle busy F → id < w.benches.length →
      s.isOrderly build inner busy id context w = true →
      Keeps busy F w ((s.run build id context).run w).2
  | .call c, busy, F, id, context, w => by
      intro hw hi hid ho
      rw [Step.run, run_liftM_bind]
      rw [Step.isOrderly] at ho
      cases hc : c.resolve context with
      | error e => exact .refl busy hw
      | ok c' =>
          rw [hc] at ho
          exact hw.keeps_call hi hid ho
  | .block head body, busy, F, id, context, w => by
      intro hw hi hid ho
      rw [Step.run, run_liftM_bind]
      rw [Step.isOrderly] at ho
      cases hh : head.resolve context with
      | error e => exact .refl busy hw
      | ok h =>
          dsimp only
          rw [state_bind_pure]
          refine hw.keeps_block hid fun opener hopener hn => ?_
          rw [after_ok (Step.run_openCondition hh hopener hn)] at ho
          obtain ⟨htext, ho⟩ := Bool.and_eq_true_iff.mp ho
          refine ⟨htext, fun hin => ?_⟩
          have hid' : id < (w.opened id h.condition opener).benches.length := by
            rwa [Workshop.opened, length_changeBuilder]
          exact Program.run_keeps hb body hin (hi.cons id _) hid' ho
  | .splice target c, busy, F, id, context, w => by
      intro hw hi hid ho
      rw [Step.run, run_bind]
      rw [Step.isOrderly] at ho
      obtain ⟨hk, hlt⟩ := hw.keeps_find busy target
      rcases hf : (find target).run w with ⟨e | other, w'⟩
      · rw [hf] at hk
        exact hk
      · rw [hf] at hk hlt
        dsimp only
        rw [run_liftM_bind]
        cases hc : c.resolve context with
        | error e => exact hk
        | ok context' =>
            dsimp only
            rw [state_bind_pure]
            have hr : (Step.spliced context target c).run w = (.ok (other, context'), w') := by
              rw [Step.spliced, run_bind, hf]
              dsimp only
              rw [run_liftM_bind, hc]
              rfl
            rw [after_ok hr] at ho
            obtain ⟨hbusy, ho⟩ := Bool.and_eq_true_iff.mp ho
            have hother := hlt other rfl
            have hnot : other ∉ busy := by simpa using hbusy
            refine hk.trans ?_
            refine hk.framed.keeps_splice hi (Nat.lt_of_lt_of_le hid hk.grows) hother hnot ?_
            intro hlent
            refine hb _ _ _ _ _ hlent (hi.cons other _) ?_ ho
            rwa [lent, length_changeBuilder, length_changeBuilder]
  | .build c, busy, F, id, context, w => by
      intro hw hi hid ho
      rw [Step.run, run_liftM_bind]
      rw [Step.isOrderly] at ho
      cases hc : c.resolve context with
      | error e => exact .refl busy hw
      | ok context' =>
          dsimp only
          rw [hc] at ho
          rw [state_bind_pure]
          exact (hb _ _ _ _ _ hw (hi.mono fun i => List.mem_cons_of_mem id) hid ho).mono fun i =>
            List.mem_cons_of_mem id
  | .raise f, busy, F, id, context, w => fun hw _ _ _ => .refl busy hw
  | .attempt body, busy, F, id, context, w => by
      intro hw hi hid ho
      have hk := Program.run_keeps hb body hw hi hid ho
      exact hk.of_benches rfl rfl
  | .on target step, busy, F, id, context, w => by
      intro hw hi hid ho
      rw [Step.run, run_bind]
      rw [Step.isOrderly] at ho
      obtain ⟨hk, hlt⟩ := hw.keeps_find busy target
      rcases hf : (find target).run w with ⟨e | other, w'⟩
      · rw [hf] at hk
        exact hk
      · rw [hf] at hk hlt
        rw [after_ok hf] at ho
        exact hk.trans (Step.run_keeps hb step hk.framed hi (hlt other rfl) ho)
  | .inspect target, busy, F, id, context, w => by
      intro hw _ _ _
      rw [Step.run, run_bind]
      obtain ⟨hk, -⟩ := hw.keeps_find busy target
      rcases hf : (find target).run w with ⟨e | other, w'⟩
      · rw [hf] at hk
        exact hk
      · rw [hf] at hk
        exact hk
termination_by structural s => s

/-- Steps in order keep frames, however they end. -/
theorem Program.run_keeps (hb : build.Keeping inner) :
    ∀ (ss : List Step) {busy : List BuilderId} {F : BuilderId → Frame} {id : BuilderId}
      {context : Value} {w : Workshop}, w.Framed F → Idle busy F → id < w.benches.length →
      Program.isOrderly build inner busy id context ss w = true →
      Keeps busy F w ((Program.run build id context ss).run w).2
  | [], busy, F, id, context, w => fun hw _ _ _ => .refl busy hw
  | s :: ss, busy, F, id, context, w => by
      intro hw hi hid ho
      rw [Program.isOrderly] at ho
      obtain ⟨hs, ho⟩ := Bool.and_eq_true_iff.mp ho
      have hk := Step.run_keeps hb s hw hi hid hs
      rw [Program.run, run_bind]
      rcases hr : (s.run build id context).run w with ⟨e | r, w'⟩
      · rw [hr] at hk
        exact hk
      · rw [hr] at hk
        rw [after_ok hr] at ho
        have hid' : id < w'.benches.length := Nat.lt_of_lt_of_le hid hk.grows
        exact hk.trans (Program.run_keeps hb ss hk.framed hi hid' ho)
termination_by structural ss => ss

end

/-! ## Building -/

/-- The query of a builder keeps frames. -/
theorem Workshop.Framed.keeps_addOwnQuery (hw : w.Framed F) (hid : id < w.benches.length) :
    Keeps busy F w ((addOwnQuery id).run w).2 := by
  rw [addOwnQuery, read, bind_assoc, run_state_bind, pure_bind, run_liftM_bind]
  cases hq : (w.builder id).addOwnQuery with
  | error e => exact .refl busy hw
  | ok b =>
      obtain ⟨-, xs, rfl⟩ := Builder.addOwnQuery_eq_ok hq
      exact hw.keeps_append hid (Stream.isPlain_singleton ⟨rfl, rfl⟩)

/-- The commands that open an upload open no block. -/
theorem Builder.isPlain_setupCommands (b : Builder) : Stream.IsPlain b.setupCommands := by
  intro c hc
  rw [setupCommands] at hc
  rcases List.mem_cons.mp hc with rfl | hc
  · exact ⟨rfl, rfl⟩
  · exact Stream.isPlain_singleton ⟨rfl, rfl⟩ c hc

/-- Building keeps frames, to whatever depth builders build inside one another. -/
theorem Builder.build_keeps (depth : Nat) :
    Building.Keeping (Builder.build depth) (Builder.isOrderly depth) := by
  induction depth with
  | zero =>
      intro busy F id context w hw _ _ _
      exact .refl busy hw
  | succ depth ih =>
      intro busy F id context w hw hi hid ho
      have hp (ho : Program.isOrderly (Builder.build depth) (isOrderly depth) busy id context
          (w.bench id).program w = true) :=
        Program.run_keeps ih (w.bench id).program hw hi hid ho
      rw [run_build]
      rw [isOrderly] at ho
      cases hk : (w.builder id).kind with
      | plain => exact .refl busy hw
      | setup => exact hw.keeps_append hid (isPlain_setupCommands _)
      | teardown => exact hw.keeps_append hid (Stream.isPlain_singleton ⟨rfl, rfl⟩)
      | query => exact hw.keeps_addOwnQuery hid
      | script =>
          rw [hk] at ho
          exact hp ho
      | scriptQuery =>
          rw [hk] at ho
          have hp := hp ho
          dsimp only
          rw [run_bind]
          rcases hr : (Program.run (Builder.build depth) id context (w.bench id).program).run w
            with ⟨e | u, w'⟩
          · rw [hr] at hp
            exact hp
          · rw [hr] at hp
            have hid' : id < w'.benches.length := Nat.lt_of_lt_of_le hid hp.grows
            exact hp.trans (hp.framed.keeps_addOwnQuery hid')

/-! ## Calls from outside -/

namespace Workshop

/-- No builder is in the middle of anything between calls from outside. -/
theorem Reached.framed {depth : Nat} (h : Reached depth w) : w.Framed fun _ => {} := by
  induction h with
  | @start w hb hn =>
      constructor
      · intro id
        rw [builder_of_length_le (by rw [hb]; exact Nat.zero_le _)]
        exact Builder.framed_new rfl rfl
      · rw [hn]
        exact fun _ he => absurd he List.not_mem_nil
  | @define w name target _ ih =>
      obtain ⟨hk, hlt⟩ := ih.keeps_find [] target
      rw [Workshop.define, run_bind]
      rcases hf : (find target).run w with ⟨e | id, w'⟩
      · rw [hf] at hk
        exact hk.framed
      · rw [hf] at hk hlt
        refine ⟨hk.framed.builders, fun e he => ?_⟩
        rcases List.mem_append.mp he with he | he
        · exact hk.framed.names e he
        · cases List.mem_singleton.mp he
          exact hlt id rfl
  | @step w id context s _ hid ho ih =>
      exact (Step.run_keeps (Builder.build_keeps depth) s ih (fun _ _ => rfl) hid ho).framed

/-- A builder that waits in a loop. -/
def waiting : Target :=
  .fresh .script false false .null .null
    [.block ⟨.loopWhile, .value (.text "busy"), .value (.bool true), .value .null, .value (.int 9)⟩
      [.call (.wait (.value (.int 2)))]]

end Workshop

end Cockpit
