import Cockpit.Proofs.Builder.Events
import Cockpit.Proofs.Builder.OneQuery

/-!
# Splices are all or nothing

A splice clears another builder, lends it conditions and a strictness, lets it build, takes
both back and takes its commands over.  Whatever the build does to other builders, how deep it
nests and however it ends, the other builder has its own conditions and strictness back
afterwards.  If no call was made on the builder that takes the commands meanwhile, that one is
as it was after a fault, and has got exactly the commands of the other one after a result.

`Step.run_accounts` is the induction over steps.  It shows at once which builders a run can have
changed and that the splices in it were sound, because the one is what makes the other true.
`Workshop.splice_allOrNothing` is the result, with all splices that happen within.
-/

namespace Cockpit

open Op Workshop

namespace Workshop

variable {w w' : Workshop} {id other : BuilderId} {build : Building} {inner : Chronicle}
  {context : Value}

/-- Whether every name stands for a builder. -/
def NamesThere (w : Workshop) : Prop := ∀ e ∈ w.names, e.2 < w.benches.length

theorem NamesThere.extend (h : w.NamesThere) (hx : Extends w w') : w'.NamesThere := by
  intro e he
  rw [hx.names] at he
  exact Nat.lt_of_lt_of_le (h e he) hx.grows

theorem extends_journal (j : Log.Journal) (w : Workshop) : Extends w { w with journal := j } :=
  ⟨rfl, Nat.le_refl _, fun _ _ => rfl⟩

/-! ## Targets, calls and blocks -/

/-- Finding a target changes no builder, and gives one that is there. -/
theorem find_accounts (h : w.NamesThere) (t : Target) :
    Accounts [] w ((find t).run w).2 ∧
      ∀ id w', (find t).run w = (.ok id, w') → id < w'.benches.length := by
  rcases find_cases t w with ⟨e, hf⟩ | ⟨n, id, hn, hf⟩ | ⟨b, -, -, hf⟩
  · rw [hf]
    exact ⟨.refl w, nofun⟩
  · rw [hf]
    refine ⟨.refl w, fun i w' hi => ?_⟩
    cases hi
    exact h _ hn
  · rw [hf]
    refine ⟨.of_eq (extends_withBench b w) fun i hi => builder_withBench_of_lt b hi, ?_⟩
    intro i w' hi
    cases hi
    rw [withBench, List.length_append]
    exact Nat.lt_succ_self _

theorem change_accounts (id : BuilderId) (f : Builder → Builder) (w : Workshop) :
    Accounts [.called id] w (w.changeBuilder id f) :=
  .call (extends_changeBuilder id f w) fun _ hi => builder_changeBuilder_of_ne w hi f

theorem call_accounts (id : BuilderId) (c : Call Value) (w : Workshop) :
    Accounts [.called id] w ((Workshop.call id c).run w).2 := by
  rw [run_call]
  rcases ((w.builder id).apply c).run w.journal with ⟨e | ⟨b, r⟩, j⟩
  · exact .call (extends_journal j w) fun _ _ => rfl
  · refine .call ((extends_journal j w).trans (extends_setBuilder id b _)) fun i hi => ?_
    exact builder_setBuilder_of_ne _ hi b

theorem addOwnQuery_accounts (id : BuilderId) (w : Workshop) :
    Accounts [.called id] w ((addOwnQuery id).run w).2 := by
  rw [addOwnQuery, read, bind_assoc, run_state_bind, pure_bind, run_liftM_bind]
  cases (w.builder id).addOwnQuery with
  | error e => exact .call (.refl w) fun _ _ => rfl
  | ok b => exact change_accounts id (fun _ => b) w

/-- A block whose condition is open already, or whose operands do not fit, does not open. -/
theorem openCondition_error {head : BlockHead Operand} {h : BlockHead Value}
    (hh : head.resolve context = .ok h)
    (hn : ∀ opener, h.opener = .ok opener →
      (w.builder id).openConditions.any (·.same h.condition) = true) :
    ∃ e, (Step.openCondition id context head).run w = (.error e, w) := by
  rw [Step.openCondition, run_liftM_bind, hh]
  dsimp only
  rw [run_liftM_bind]
  cases ho : h.opener with
  | error e => exact ⟨e, rfl⟩
  | ok opener =>
      dsimp only
      rw [run_bind, run_openBlock, hn opener ho]
      exact ⟨_, rfl⟩

/-- A block is accounted for by a call on its builder and by what happens in its body. -/
theorem block_accounts {h : BlockHead Value} {body : Op Workshop Unit} {opener : Command}
    {es : List Event} (ho : h.opener = .ok opener)
    (hn : (w.builder id).openConditions.any (·.same h.condition) = false)
    (hbody : Accounts es (w.opened id h.condition opener)
      (body.run (w.opened id h.condition opener)).2) :
    Accounts (.called id :: es) w ((block id h body).run w).2 := by
  have hopened : Accounts [.called id] w (w.opened id h.condition opener) := change_accounts ..
  have hin := hopened.trans hbody
  rw [run_block body ho hn]
  -- What the block still does to its builder is accounted for by the call that opened it.
  have hcalled : id ∈ called ([.called id] ++ es) := List.mem_cons_self
  rcases hr : body.run (w.opened id h.condition opener) with ⟨e | u, t⟩
  · rw [hr] at hin
    dsimp only at hin ⊢
    exact (hin.change hcalled _).change hcalled _
  · rw [hr] at hin
    dsimp only at hin ⊢
    exact (hin.change hcalled _).change hcalled _

/-! ## Splices -/

/-- The workshop in which a builder has its own conditions and strictness back after it has
built on loan. -/
def givenBack (build : Building) (id other : BuilderId) (context : Value) (w : Workshop) :
    Workshop :=
  ((build other context).run (w.lent id other)).2.changeBuilder other
    (giveBack ((w.changeBuilder other Builder.clear).builder other))

/-- A splice fails when everything is given back, or goes on and takes the commands over. -/
theorem run_splice_cases (build : Building) (id other : BuilderId) (context : Value)
    (w : Workshop) :
    (∃ e, (splice build id other context).run w =
        (.error e, w.givenBack build id other context)) ∨
      ∃ j, (splice build id other context).run w =
        (.ok (), { (w.givenBack build id other context).takenOver id other with journal := j }) := by
  rw [run_splice, givenBack]
  rcases (build other context).run (w.lent id other) with ⟨e | u, t⟩
  · exact Or.inl ⟨e, rfl⟩
  · dsimp only
    rw [run_takeOver]
    split
    · exact Or.inl ⟨_, rfl⟩
    · exact Or.inr ⟨_, rfl⟩

theorem lent_accounts (id other : BuilderId) (w : Workshop) :
    Accounts [.called other] w (w.lent id other) :=
  .call (extends_lent id other w) fun _ hi => builder_lent_of_ne hi

/-- What the build has done to other builders is left when things are given back. -/
theorem givenBack_accounts {es : List Event}
    (hb : Accounts es (w.lent id other) ((build other context).run (w.lent id other)).2) :
    Accounts (.called other :: es) w (w.givenBack build id other context) :=
  ((lent_accounts id other w).trans hb).change List.mem_cons_self _

/-- The other builder has its own conditions and strictness when things are given back. -/
theorem parts_givenBack (hother : other < w.benches.length)
    (hx : Extends (w.lent id other) ((build other context).run (w.lent id other)).2) :
    ((w.givenBack build id other context).builder other).openConditions =
        (w.builder other).openConditions ∧
      ((w.givenBack build id other context).builder other).strict = (w.builder other).strict := by
  have hlt := Nat.lt_of_lt_of_le hother ((extends_lent id other w).trans hx).grows
  rw [givenBack, builder_changeBuilder_self hlt, builder_changeBuilder_self hother]
  exact ⟨rfl, rfl⟩

/-- Taking commands over changes no conditions and no strictness. -/
theorem parts_takenOver (id other i : BuilderId) (w : Workshop) :
    ((w.takenOver id other).builder i).openConditions = (w.builder i).openConditions ∧
      ((w.takenOver id other).builder i).strict = (w.builder i).strict := by
  rcases builder_changeBuilder_cases id (·.append (w.builder other).stream) w i with h | ⟨rfl, h⟩
  · rw [takenOver, h]
    exact ⟨rfl, rfl⟩
  · rw [takenOver, h]
    exact ⟨rfl, rfl⟩

/-- A splice gives back what it borrowed. -/
theorem splice_restores (hother : other < w.benches.length)
    (hx : Extends (w.lent id other) ((build other context).run (w.lent id other)).2) :
    (Splicing.of build inner id other context w).Restores := by
  obtain ⟨hconditions, hstrict⟩ := parts_givenBack hother hx
  rcases run_splice_cases build id other context w with ⟨e, hr⟩ | ⟨j, hr⟩
  · constructor
    · rw [Splicing.of, hr]
      exact hconditions
    · rw [Splicing.of, hr]
      exact hstrict
  · obtain ⟨hc, hs⟩ := parts_takenOver id other other (w.givenBack build id other context)
    constructor
    · rw [Splicing.of, hr]
      exact hc.trans hconditions
    · rw [Splicing.of, hr]
      exact hs.trans hstrict

/-- A splice whose build makes no call on the builder that takes the commands is all or
nothing for it. -/
theorem splice_isAllOrNothing (hid : id < w.benches.length)
    (hb : Accounts (inner other context (w.lent id other)) (w.lent id other)
      ((build other context).run (w.lent id other)).2)
    (hapart : (Splicing.of build inner id other context w).IsApart) :
    (Splicing.of build inner id other context w).AllOrNothing := by
  have hne : id ≠ other := hapart.ne
  have hback := givenBack_accounts hb
  have hsame : (w.givenBack build id other context).builder id = w.builder id := by
    refine hback.untouched id hid fun hmem => ?_
    rcases List.mem_cons.mp hmem with h | h
    · exact hne h
    · exact hapart.untouched h
  rcases run_splice_cases build id other context w with ⟨e, hr⟩ | ⟨j, hr⟩
  · rw [Splicing.of, hr]
    exact hsame
  · have hlt := Nat.lt_of_lt_of_le hid hback.extended.grows
    have hother : ((w.givenBack build id other context).takenOver id other).builder other =
        (w.givenBack build id other context).builder other :=
      builder_changeBuilder_of_ne _ hne.symm _
    have htaken := builder_takenOver other hlt
    rw [hsame, ← hother] at htaken
    rw [Splicing.of, hr]
    exact htaken

/-- A splice is accounted for by calls on both builders, by itself, and by what happens while
the other builder builds. -/
theorem splice_accounts (hid : id < w.benches.length) (hother : other < w.benches.length)
    (hb : Accounts (inner other context (w.lent id other)) (w.lent id other)
      ((build other context).run (w.lent id other)).2) :
    Accounts (spliceEvents build inner id other context w) w
      ((splice build id other context).run w).2 := by
  have hback := givenBack_accounts hb
  have hcalls : Accounts (.called id :: .called other :: inner other context (w.lent id other)) w
      ((splice build id other context).run w).2 := by
    rcases run_splice_cases build id other context w with ⟨e, hr⟩ | ⟨j, hr⟩
    · rw [hr]
      exact hback.cons id
    · rw [hr]
      refine ((hback.cons id).change List.mem_cons_self _).again List.mem_cons_self
        (extends_journal j _) fun _ _ _ => rfl
  refine ⟨hcalls.extended, hcalls.untouched, fun s hs => ?_⟩
  rcases List.mem_cons.mp hs with rfl | hs
  · exact ⟨splice_restores hother hb.extended, splice_isAllOrNothing hid hb⟩
  · exact hb.sound s hs

end Workshop

/-! ## Steps and building -/

variable {build : Building} {inner : Chronicle}

/-- Whether the events of building account for what it does. -/
def Building.Accounted (build : Building) (inner : Chronicle) : Prop :=
  ∀ (id : BuilderId) (context : Value) (w : Workshop), w.NamesThere → id < w.benches.length →
    Accounts (inner id context w) w ((build id context).run w).2

mutual

/-- The events of a step account for what it does. -/
theorem Step.run_accounts (hb : build.Accounted inner) : ∀ (s : Step) {id : BuilderId}
    {context : Value} {w : Workshop}, w.NamesThere → id < w.benches.length →
      Accounts (s.events build inner id context w) w ((s.run build id context).run w).2
  | .call c, id, context, w => by
      intro _ _
      rw [Step.run, Step.events]
      exact .bind_liftM fun c' _ => call_accounts id c' w
  | .block head body, id, context, w => by
      intro hw hid
      rw [Step.run, run_liftM_bind, Step.events]
      cases hh : head.resolve context with
      | error e =>
          have hr : (Step.openCondition id context head).run w = (.error e, w) := by
            rw [Step.openCondition, run_liftM_bind, hh]
          rw [follow_error hr]
          exact .refl w
      | ok h =>
          dsimp only
          rw [state_bind_pure]
          by_cases hopens : ∃ opener, h.opener = .ok opener ∧
              (w.builder id).openConditions.any (·.same h.condition) = false
          · obtain ⟨opener, ho, hn⟩ := hopens
            rw [follow_ok (Step.run_openCondition hh ho hn)]
            have hx : Extends w (w.opened id h.condition opener) := extends_changeBuilder ..
            refine block_accounts ho hn (Program.run_accounts hb body (hw.extend hx) ?_)
            exact Nat.lt_of_lt_of_le hid hx.grows
          · have hclosed : ∀ opener, h.opener = .ok opener →
                (w.builder id).openConditions.any (·.same h.condition) = true := fun opener ho =>
              Bool.of_not_eq_false fun hn => hopens ⟨opener, ho, hn⟩
            obtain ⟨e, he⟩ := run_block_error (Program.run build id context body) hclosed
            obtain ⟨f, hf⟩ := openCondition_error hh hclosed
            rw [he, follow_error hf]
            exact .refl w
  | .splice target c, id, context, w => by
      intro hw hid
      rw [Step.run, Step.events]
      obtain ⟨hfind, hfound⟩ := find_accounts hw target
      refine hfind.bind_of_quiet fun other w' hr => ?_
      have hx := hfind.extended
      rw [hr] at hx
      have hlt := hfound other w' hr
      refine .bind_liftM fun context' _ => ?_
      rw [state_bind_pure]
      refine splice_accounts (Nat.lt_of_lt_of_le hid hx.grows) hlt (hb other context' _ ?_ ?_)
      · exact hw.extend (hx.trans (extends_lent id other w'))
      · exact Nat.lt_of_lt_of_le hlt (extends_lent id other w').grows
  | .build c, id, context, w => by
      intro hw hid
      rw [Step.run, Step.events]
      refine .bind_liftM fun context' _ => ?_
      rw [state_bind_pure]
      exact hb id context' w hw hid
  | .raise f, id, context, w => fun _ _ => .refl w
  | .attempt body, id, context, w => by
      intro hw hid
      have h : Accounts (Program.events build inner id context body w) w _ :=
        Program.run_accounts hb body hw hid
      exact ⟨h.extended.trans ⟨rfl, Nat.le_refl _, fun _ _ => rfl⟩, h.untouched, h.sound⟩
  | .on target step, id, context, w => by
      intro hw hid
      rw [Step.run, Step.events]
      obtain ⟨hfind, hfound⟩ := find_accounts hw target
      refine hfind.bind_of_quiet fun other w' hr => ?_
      have hx := hfind.extended
      rw [hr] at hx
      exact Step.run_accounts hb step (hw.extend hx) (hfound other w' hr)
  | .inspect target, id, context, w => by
      intro hw _
      rw [Step.run]
      have h := (find_accounts hw target).1
      rcases run_bind_cases (find target) (fun other => read other Builder.view) w with
        ⟨other, w', hr, hrun⟩ | ⟨e, w', hr, hrun⟩
      · rw [hr] at h
        rw [hrun]
        exact h
      · rw [hr] at h
        rw [hrun]
        exact h
termination_by structural s => s

/-- So do the events of steps in order. -/
theorem Program.run_accounts (hb : build.Accounted inner) : ∀ (ss : List Step) {id : BuilderId}
    {context : Value} {w : Workshop}, w.NamesThere → id < w.benches.length →
      Accounts (Program.events build inner id context ss w) w
        ((Program.run build id context ss).run w).2
  | [], id, context, w => fun _ _ => .refl w
  | s :: ss, id, context, w => by
      intro hw hid
      rw [Program.run, Program.events]
      have hs : Accounts (Step.events build inner id context s w) w _ :=
        Step.run_accounts hb s hw hid
      refine hs.bind fun _ w' hr => ?_
      have hx := hs.extended
      rw [hr] at hx
      exact Program.run_accounts hb ss (hw.extend hx) (Nat.lt_of_lt_of_le hid hx.grows)
termination_by structural ss => ss

end

/-- The events of building account for what it does, to whatever depth builders build inside
one another. -/
theorem Builder.build_accounts (depth : Nat) :
    (Builder.build depth).Accounted (Builder.events depth) := by
  induction depth with
  | zero => exact fun _ _ w _ _ => .refl w
  | succ depth ih =>
      intro id context w hw hid
      have hp : Accounts (Program.events _ _ id context (w.bench id).program w) w _ :=
        Program.run_accounts ih (w.bench id).program hw hid
      rw [run_build, Builder.events]
      cases hk : (w.builder id).kind with
      | plain => exact (Accounts.refl w).cons id
      | setup => exact change_accounts id (fun b => b.append b.setupCommands) w
      | teardown => exact change_accounts id (·.append teardownCommands) w
      | query => exact addOwnQuery_accounts id w
      | script => exact hp.cons id
      | scriptQuery =>
          dsimp only
          rcases run_bind_cases (Program.run (Builder.build depth) id context (w.bench id).program)
            (fun _ => Workshop.addOwnQuery id) w with ⟨u, w', hr, hrun⟩ | ⟨e, w', hr, hrun⟩
          · rw [hr] at hp
            rw [hrun]
            have hq := addOwnQuery_accounts id w'
            refine (hp.cons id).again List.mem_cons_self hq.extended fun i hi hne => ?_
            exact hq.untouched i hi (List.not_mem_cons_of_ne_of_not_mem hne List.not_mem_nil)
          · rw [hr] at hp
            rw [hrun]
            exact hp.cons id

namespace Workshop

/-- A splice of another builder, whose build makes no call on the one that takes its commands,
either fails and leaves that one as it was, or appends exactly the commands that the other one
then holds.  Either way the other builder has its own open conditions and strictness back.  The
splices that happen while it builds give back what they borrow too, and those that may be are
all or nothing. -/
theorem splice_allOrNothing (depth : Nat) {w : Workshop} (id other : BuilderId) (context : Value)
    (hw : w.NamesThere) (hid : id < w.benches.length) (hother : other < w.benches.length)
    (hne : id ≠ other)
    (hcalls : id ∉ called (Builder.events depth other context (w.lent id other))) :
    let r := (splice (Builder.build depth) id other context).run w
    (r.1 ≠ .ok () → r.2.builder id = w.builder id) ∧
      (r.1 = .ok () →
        r.2.builder id = (w.builder id).append (r.2.builder other).stream) ∧
      (r.2.builder other).openConditions = (w.builder other).openConditions ∧
      (r.2.builder other).strict = (w.builder other).strict ∧
      ∀ s ∈ splicings (Builder.events depth other context (w.lent id other)),
        s.Restores ∧ (s.IsApart → s.AllOrNothing) := by
  have hx := extends_lent id other w
  have hb := Builder.build_accounts depth other context (w.lent id other) (hw.extend hx)
    (Nat.lt_of_lt_of_le hother hx.grows)
  have hrestores : (Splicing.of _ (Builder.events depth) id other context w).Restores :=
    splice_restores hother hb.extended
  have hall := splice_isAllOrNothing hid hb ⟨hne, hcalls⟩
  dsimp only
  refine ⟨fun hr => ?_, fun hr => ?_, hrestores.conditions, hrestores.strict, fun s hs => ?_⟩
  · rw [Splicing.AllOrNothing] at hall
    split at hall
    · exact hall
    · exact absurd ‹_› hr
  · rw [Splicing.AllOrNothing] at hall
    split at hall
    · rename_i e he
      exact absurd (hr.symm.trans he) nofun
    · exact hall
  · exact ⟨(hb.sound s hs).restores, (hb.sound s hs).allOrNothing⟩

/-- A builder inside a block, and one that becomes strict and splices itself inside a block,
which empties its stream and then fails, before it waits. -/
def lending : Workshop where
  benches :=
    [⟨{ stream := [.openIf (.text "ready") (.bool true) [], .wait (.int 1)],
        openConditions := [.text "ready"] }, []⟩,
      ⟨{ kind := .script, stream := [.marker (.text "old")], openConditions := [.text "own"] },
        [.call (.setStrict (.value (.bool true))),
          .block ⟨.onceIf, .value (.text "busy"), .value (.bool true), .value .null, .value .null⟩
            [.attempt [.splice (.named "self") (.value .null)],
              .call (.wait (.context "delay"))]]⟩]
  names := [("self", 1)]

theorem splice_allOrNothing_self :
    let waits := (splice (Builder.build 3) 0 1 (.object [("delay", .int 3)])).run lending
    let fails := (splice (Builder.build 3) 0 1 (.object [("delay", .text "soon")])).run lending
    waits.1 = .ok () ∧
      (waits.2.builder 0).stream = [.openIf (.text "ready") (.bool true) [], .wait (.int 1),
        .wait (.int 3), .closeIf (.text "busy")] ∧
      fails.1 = .error .wrongType ∧ fails.2.builder 0 = lending.builder 0 ∧
      (fails.2.builder 1).openConditions = [.text "own"] ∧ (fails.2.builder 1).strict = false ∧
      ∃ s, splicings (Builder.events 3 1 (.object [("delay", .text "soon")])
          (lending.lent 0 1)) = [s] ∧ s.outcome = .error (.openCondition (.text "busy")) ∧
        s.Restores := by
  have hnames : lending.NamesThere := by
    intro e he
    obtain rfl := List.mem_singleton.mp he
    decide
  obtain ⟨-, hwaits, -⟩ := splice_allOrNothing 3 0 1 (.object [("delay", .int 3)]) hnames
    (by decide) (by decide) (by decide) (by decide)
  obtain ⟨hfails, -, hconditions, hstrict, hnested⟩ := splice_allOrNothing 3 0 1
    (.object [("delay", .text "soon")]) hnames (by decide) (by decide) (by decide) (by decide)
  refine ⟨rfl, congrArg Builder.stream (hwaits rfl), rfl, hfails nofun, hconditions, hstrict, _,
    rfl, rfl, ?_⟩
  exact (hnested _ List.mem_cons_self).1

end Workshop

end Cockpit
