import Cockpit.Proofs.Builder.Typing
import Cockpit.Session.Upload

/-!
# The stream of an upload

An agent composes on a new builder: it splices its setup, runs its systems, and splices its
teardown.  So composing is running one program, `Agent.program`, and what is known of programs is
known of it.

`Agent.Fit` collects what an upload relies on: the core setup and teardown, a workshop where no
builder is in the middle of anything, orderly systems, and typed requests.  `Agent.Fit.composed`
says what composing then gives, if it gives anything: the commands of the setup, those that the
systems added, and that of the teardown, well nested, with at most one query, and all typed.
-/

namespace Cockpit

open Op Workshop

/-! ## Programs -/

theorem Program.run_append (build : Building) (id : BuilderId) (context : Value)
    (ss ts : List Step) :
    Program.run build id context (ss ++ ts) =
      (Program.run build id context ss >>= fun _ => Program.run build id context ts) := by
  induction ss with
  | nil => rfl
  | cons s ss ih =>
      rw [List.cons_append, Program.run, Program.run, ih, Op.bind_assoc]

theorem Program.isOrderly_append (build : Building) (inner : Discipline) (busy : List BuilderId)
    (id : BuilderId) (context : Value) (ss ts : List Step) (w : Workshop) :
    Program.isOrderly build inner busy id context (ss ++ ts) w =
      (Program.isOrderly build inner busy id context ss w &&
        (Program.run build id context ss).after w fun _ w =>
          Program.isOrderly build inner busy id context ts w) := by
  induction ss generalizing w with
  | nil =>
      rw [List.nil_append, Program.isOrderly, Bool.true_and, Program.run]
      rfl
  | cons s ss ih =>
      rw [List.cons_append, Program.isOrderly, Program.isOrderly, Program.run, Bool.and_assoc]
      congr 1
      rw [Op.after, Op.after, Op.after, run_bind]
      rcases (s.run build id context).run w with ⟨e | r, t⟩
      · rfl
      · exact ih t

/-- A splice with a context that is there. -/
theorem Step.run_splice (build : Building) (target : Target) (id : BuilderId)
    (context v : Value) : (Step.splice target (.value v)).run build id context =
      (find target >>= fun other =>
        Workshop.splice build id other v >>= fun _ => pure .nothing) := by
  rw [Step.run]
  rfl

namespace Agent

variable {a : Agent} {context : Value} {w t : Workshop} {id : BuilderId}

/-- What an agent does on its builder. -/
def program (a : Agent) (context : Value) : Program :=
  .splice a.setup (.value context) :: (a.systems ++ [.splice a.teardown (.value context)])

/-- The workshop with a new builder for an agent, which is strict if the agent is. -/
def start (a : Agent) (w : Workshop) : Workshop := w.withBench ⟨{ strict := a.strict }, []⟩

/-- Composing is running the program of an agent on a new builder. -/
theorem run_compose (a : Agent) (context : Value) (w : Workshop) :
    (Session.compose a context).run w =
      let r := (Program.run Workshop.build w.benches.length context (a.program context)).run
        (a.start w)
      (r.1.map fun _ => (r.2.builder w.benches.length).stream, r.2) := by
  have hprogram (id : BuilderId) : Program.run Workshop.build id context (a.program context) = (do
      splice Workshop.build id (← find a.setup) context
      Program.run Workshop.build id context a.systems
      splice Workshop.build id (← find a.teardown) context : Op Workshop Unit) := by
    rw [program, Program.run, Program.run_append, Program.run, Program.run, Step.run_splice,
      Step.run_splice]
    simp only [Op.bind_assoc, Op.pure_bind, bind_pure_unit]
  have hcompose : (Session.compose a context).run w =
      (Program.run Workshop.build w.benches.length context (a.program context) >>= fun _ =>
        read w.benches.length Builder.stream).run (a.start w) := by
    rw [hprogram]
    simp only [Op.bind_assoc]
    rfl
  rw [hcompose, run_bind]
  dsimp only
  rcases (Program.run Workshop.build w.benches.length context (a.program context)).run (a.start w)
    with ⟨e | u, t⟩
  · rfl
  · rfl

/-! ## The core setup and teardown -/

/-- The target that leads an upload in. -/
def coreSetup : Target := .fresh .setup false false .null .null []

/-- The target that closes an upload. -/
def coreTeardown : Target := .fresh .teardown false false .null .null []

/-- A splice of a new builder that appends some commands gives these. -/
theorem stream_splice_fresh {kind : BuilderKind} {cs : Stream} {r : Reply}
    (hkind : kind.asks = false)
    (hbuild : ∀ (i : BuilderId) (v : Workshop), (v.builder i).kind = kind →
      (Workshop.build i context).run v = (.ok (), v.changeBuilder i (·.append cs)))
    (hid : id < w.benches.length)
    (h : (Step.run Workshop.build id context
      (.splice (.fresh kind false false .null .null []) (.value context))).run w = (.ok r, t)) :
    (t.builder id).stream = (w.builder id).stream ++ cs := by
  have hfresh := run_fresh kind false false .null .null [] w
  rw [hkind] at hfresh
  simp only [Bool.false_eq_true, if_false] at hfresh
  generalize hn : freshBench kind false false .null [] [] w = n at hfresh
  rw [Step.run_splice, run_bind_ok hfresh] at h
  obtain ⟨u, t', hsplice, hlast⟩ := run_bind_eq_ok h
  cases hlast
  have hne : id ≠ w.benches.length := Nat.ne_of_lt hid
  have hother : w.benches.length < (w.withBench n).benches.length := by
    rw [withBench, List.length_append]
    exact Nat.lt_succ_self _
  have hkept : (w.withBench n).builder id = w.builder id := builder_withBench_of_lt n hid
  have hnew : ((w.withBench n).builder w.benches.length).kind = kind := by
    rw [builder_withBench_self, ← hn]
    rfl
  have hlt : id < (w.withBench n).benches.length := Nat.lt_trans hid hother
  generalize w.withBench n = v at hsplice hother hkept hnew hlt
  generalize w.benches.length = other at hsplice hother hne hnew
  have hlent : (v.lent id other).builder other = lend (v.builder id) (v.builder other).clear :=
    builder_lent_self hne hother
  have hlength : other < (v.lent id other).benches.length := by
    rwa [lent, length_changeBuilder, length_changeBuilder]
  have hkind' : ((v.lent id other).builder other).kind = kind := by
    rw [hlent]
    exact hnew
  -- The workshop once the other builder has its own things back.
  rw [Workshop.run_splice, hbuild other _ hkind'] at hsplice
  dsimp only at hsplice
  generalize hback : ((v.lent id other).changeBuilder other (·.append cs)).changeBuilder other
    (giveBack ((v.changeBuilder other Builder.clear).builder other)) = back at hsplice
  have hbackId : back.builder id = w.builder id := by
    rw [← hback, builder_changeBuilder_of_ne _ hne, builder_changeBuilder_of_ne _ hne,
      builder_lent_of_ne hne, hkept]
  have hbackOther : (back.builder other).stream = cs := by
    rw [← hback, builder_changeBuilder_self (by rwa [length_changeBuilder]),
      builder_changeBuilder_self hlength, hlent]
    rfl
  have hbackLength : id < back.benches.length := by
    rw [← hback, length_changeBuilder, length_changeBuilder, lent, length_changeBuilder,
      length_changeBuilder]
    exact hlt
  rw [run_takeOver] at hsplice
  split at hsplice
  · cases hsplice
  · obtain ⟨-, ht⟩ := Prod.mk.inj hsplice
    have hbenches : t.benches = (back.takenOver id other).benches := by rw [← ht]
    rw [builder_congr hbenches, builder_takenOver other hbackLength, hbackId, hbackOther]
    rfl

/-- The commands that lead an upload in: a call that does nothing, and the mark of the start. -/
def lead : Stream :=
  [.exec (.text "NOP") ["==== CoreSetupBuilder:build()"] (.int 0),
    .marker (.text "<upload_prog>")]

/-- The command that closes an upload: the empty mark. -/
def close : Stream := [.marker (.text "")]

theorem stream_coreSetup {r : Reply} (hid : id < w.benches.length)
    (h : (Step.run Workshop.build id context (.splice coreSetup (.value context))).run w =
      (.ok r, t)) : (t.builder id).stream = (w.builder id).stream ++ lead := by
  refine stream_splice_fresh rfl (fun i v hkind => ?_) hid h
  have hlead : (v.builder i).setupCommands = lead := by
    rw [Builder.setupCommands, hkind]
    rfl
  have hbuild := Builder.run_build 199 i context v
  rw [hkind] at hbuild
  refine hbuild.trans ?_
  rw [changeBuilder, hlead, changeBuilder]
  rfl

theorem stream_coreTeardown {r : Reply} (hid : id < w.benches.length)
    (h : (Step.run Workshop.build id context (.splice coreTeardown (.value context))).run w =
      (.ok r, t)) : (t.builder id).stream = (w.builder id).stream ++ close := by
  refine stream_splice_fresh rfl (fun i v hkind => ?_) hid h
  have hbuild := Builder.run_build 199 i context v
  rw [hkind] at hbuild
  exact hbuild

/-! ## What an upload relies on -/

/-- What an agent asks for while it composes. -/
def requests (a : Agent) (context : Value) (w : Workshop) : List Request :=
  Program.requests Workshop.build (Builder.requests Builder.depthLimit) w.benches.length context
    (a.program context) (a.start w)

/-- Whether an agent is orderly while it composes, where its builder is busy. -/
def isOrderly (a : Agent) (context : Value) (w : Workshop) : Bool :=
  Program.isOrderly Workshop.build (Builder.isOrderly Builder.depthLimit) [w.benches.length]
    w.benches.length context (a.program context) (a.start w)

/-- What an upload of an agent relies on. -/
structure Fit (a : Agent) (context : Value) (w : Workshop) : Prop where
  setup : a.setup = coreSetup
  teardown : a.teardown = coreTeardown
  /-- No builder is in the middle of anything. -/
  framed : w.Framed fun _ => {}
  oneQuery : w.OneQuery
  typed : w.Typed
  orderly : a.isOrderly context w = true
  requests : ∀ r ∈ a.requests context w, r.Typed

/-- What an agent composes. -/
structure Composed (a : Agent) (context : Value) (w : Workshop) (stream : Stream) : Prop where
  /-- The systems add their commands behind those of the setup, and the teardown closes them. -/
  parts : ∃ (r : Reply) (w₁ w₂ : Workshop) (cs : Stream),
    (Step.run Workshop.build w.benches.length context (.splice coreSetup (.value context))).run
        (a.start w) = (.ok r, w₁) ∧
      (w₁.builder w.benches.length).stream = lead ∧
      (Program.run Workshop.build w.benches.length context a.systems).run w₁ = (.ok (), w₂) ∧
      (w₂.builder w.benches.length).stream = lead ++ cs ∧ stream = lead ++ cs ++ close
  wellNested : stream.WellNested
  oneQuery : stream.queries ≤ 1
  typed : stream.Typed

theorem Fit.framed_start (h : a.Fit context w) : (a.start w).Framed fun _ => {} :=
  (h.framed.keeps_withBench [] rfl rfl).framed

theorem Fit.typed_start (h : a.Fit context w) : (a.start w).Typed :=
  h.typed.withBench ⟨nofun, nofun⟩

theorem length_start (a : Agent) (w : Workshop) :
    w.benches.length < (a.start w).benches.length := by
  rw [start, withBench, List.length_append]
  exact Nat.lt_succ_self _

/-- The systems run between the setup and the teardown, and leave the commands of the setup. -/
theorem Fit.parts (h : a.Fit context w) {u : Unit}
    (hr : (Program.run Workshop.build w.benches.length context (a.program context)).run
      (a.start w) = (.ok u, t)) :
    ∃ (r : Reply) (w₁ w₂ : Workshop) (cs : Stream),
      (Step.run Workshop.build w.benches.length context (.splice coreSetup (.value context))).run
          (a.start w) = (.ok r, w₁) ∧
        (w₁.builder w.benches.length).stream = lead ∧
        (Program.run Workshop.build w.benches.length context a.systems).run w₁ = (.ok (), w₂) ∧
        (w₂.builder w.benches.length).stream = lead ++ cs ∧
        (t.builder w.benches.length).stream = lead ++ cs ++ close := by
  have hstart := length_start a w
  have horderly := h.orderly
  have hempty : ((a.start w).builder w.benches.length).stream = [] := by
    rw [start, builder_withBench_self]
  have hkeep : build.Keeping (Builder.isOrderly Builder.depthLimit) := Builder.build_keeps _
  have hidle {busy : List BuilderId} : Idle busy fun _ => {} := fun _ _ => rfl
  rw [isOrderly] at horderly
  generalize w.benches.length = id at hr hstart horderly hempty
  rw [program, Program.run] at hr
  obtain ⟨r₁, w₁, h₁, hr⟩ := run_bind_eq_ok hr
  rw [Program.run_append] at hr
  obtain ⟨u₂, w₂, h₂, hr⟩ := run_bind_eq_ok hr
  rw [Program.run] at hr
  obtain ⟨r₃, w₃, h₃, hr⟩ := run_bind_eq_ok hr
  cases hr
  rw [program, Program.isOrderly, Bool.and_eq_true, after_ok h₁, Program.isOrderly_append,
    Bool.and_eq_true] at horderly
  obtain ⟨hsetup, hsystems, -⟩ := horderly
  have hkept₁ := Step.run_keeps hkeep _ h.framed_start hidle hstart hsetup
  rw [h₁] at hkept₁
  have hid₁ : id < w₁.benches.length := Nat.lt_of_lt_of_le hstart hkept₁.grows
  have hkept₂ := Program.run_keeps hkeep a.systems hkept₁.framed hidle hid₁ hsystems
  rw [h₂] at hkept₂
  rw [h.setup] at h₁
  rw [h.teardown] at h₃
  have hlead := stream_coreSetup hstart h₁
  rw [hempty, List.nil_append] at hlead
  obtain ⟨cs, hcs⟩ := hkept₂.streams id List.mem_cons_self
  rw [hlead] at hcs
  have hclose := stream_coreTeardown (Nat.lt_of_lt_of_le hid₁ hkept₂.grows) h₃
  rw [← hcs] at hclose
  exact ⟨r₁, w₁, w₂, cs, h₁, hlead, h₂, hcs.symm, hclose⟩

/-- An agent that is fit composes a whole upload, if it composes anything. -/
theorem Fit.composed (h : a.Fit context w) {stream : Stream}
    (hr : (Session.compose a context).run w = (.ok stream, t)) : a.Composed context w stream := by
  have hstart := length_start a w
  have hkeep : build.Keeping (Builder.isOrderly Builder.depthLimit) := Builder.build_keeps _
  have hidle {busy : List BuilderId} : Idle busy fun _ => {} := fun _ _ => rfl
  rw [run_compose] at hr
  dsimp only at hr
  generalize hid : w.benches.length = id at hr hstart
  have htyped : ((Program.run Workshop.build id context (a.program context)).run
      (a.start w)).2.Typed := by
    refine Program.run_typed Builder.depthLimit h.typed_start ?_
    rw [← hid]
    exact h.requests
  have hquery : ((Program.run Workshop.build id context (a.program context)).run
      (a.start w)).2.OneQuery :=
    Program.run_oneQuery (Builder.build_oneQuery Builder.depthLimit) _ id context _
      (h.oneQuery.withBench rfl rfl)
  have horderly := h.orderly
  rw [isOrderly, hid] at horderly
  have hframed : Keeps [id] (fun _ => {}) (a.start w)
      ((Program.run Workshop.build id context (a.program context)).run (a.start w)).2 :=
    Program.run_keeps hkeep _ h.framed_start hidle hstart horderly
  rcases hrun : (Program.run Workshop.build id context (a.program context)).run (a.start w)
    with ⟨e | u, t'⟩
  · rw [hrun] at hr
    cases hr
  · rw [hrun] at hr htyped hquery hframed
    cases hr
    refine ⟨?_, (hframed.framed.builders id).wellNested, hquery id, (htyped.builders id).stream⟩
    rw [← hid] at hrun ⊢
    exact h.parts hrun

end Agent

end Cockpit
