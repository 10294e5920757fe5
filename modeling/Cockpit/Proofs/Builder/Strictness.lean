import Cockpit.Proofs.Builder.Requests
import Cockpit.Proofs.Builder.Telling

/-!
# Strict and lenient builders

A strict builder refuses an action that its device lacks.  A lenient one lets the device log it
and goes on without it.  Otherwise they do the same.

`Op.Hardens x y` says so of an operation `x` of a strict builder and the same operation `y` of a
lenient one, and `Op.Agrees x w` of an operation `x` in a workshop `w` and in `w.loosen`, where all
builders are lenient.  Either both end alike and log the same, in which no action is missed, or the
first fails and the second logs a missed action.

The induction over programs needs that the builder at hand stays strict.  A splice makes the other
builder strict while it builds, so it holds at every depth.
-/

namespace Cockpit

/-- Whether a record tells of an action that a device lacks. -/
def Log.Record.IsMiss (r : Log.Record) : Prop := ∃ d name, r = Device.missed d name

/-! ## Calls -/

namespace Op

variable {α β : Type}

/-- How an operation on a strict builder and the same on a lenient one go together. -/
inductive Hardens (x y : Op Log.Journal α) : Prop where
  /-- Both end alike and log the same, and no action is missed. -/
  | agree {rs : List Log.Record} {r : Except Fault α} (hard : x.Logs rs r) (loose : y.Logs rs r)
      (known : ∀ m ∈ rs, ¬ m.IsMiss) : Hardens x y
  /-- The first one fails, and the second one logs that an action is missed. -/
  | refuse {rs ss : List Log.Record} {e : Fault} {r : Except Fault α}
      (hard : x.Logs rs (.error e)) (loose : y.Logs ss r) (miss : ∃ m ∈ ss, m.IsMiss) :
      Hardens x y

theorem Hardens.of_silent {x : Op Log.Journal α} {r : Except Fault α} (h : x.Logs [] r) :
    x.Hardens x := .agree h h nofun

theorem hardens_pure (a : α) : (pure a : Op Log.Journal α).Hardens (pure a) :=
  .of_silent (logs_pure a)

theorem hardens_liftM (r : Except Fault α) : (liftM r : Op Log.Journal α).Hardens (liftM r) :=
  .of_silent (logs_liftM r)

theorem Hardens.bind {x y : Op Log.Journal α} {f g : α → Op Log.Journal β} (hx : x.Hardens y)
    (hf : ∀ a, (f a).Hardens (g a)) : (x >>= f).Hardens (y >>= g) := by
  have loose (a : α) : (g a).Logging := by
    rcases hf a with ⟨-, hy, -⟩ | ⟨-, hy, -⟩
    · exact ⟨_, _, hy⟩
    · exact ⟨_, _, hy⟩
  rcases hx with ⟨hx, hy, hknown⟩ | ⟨hx, hy, m, hm, hmiss⟩
  · rename_i rs r
    cases r with
    | error e => exact .agree hx.bind_error hy.bind_error hknown
    | ok a =>
        rcases hf a with ⟨hf, hg, hknown'⟩ | ⟨hf, hg, m, hm, hmiss⟩
        · refine .agree (hx.bind hf) (hy.bind hg) fun m hm => ?_
          rcases List.mem_append.mp hm with hm | hm
          · exact hknown m hm
          · exact hknown' m hm
        · exact .refuse (hx.bind hf) (hy.bind hg) ⟨m, List.mem_append_right _ hm, hmiss⟩
  · rename_i rs ss e r
    cases r with
    | error e' => exact .refuse hx.bind_error hy.bind_error ⟨m, hm, hmiss⟩
    | ok a =>
        obtain ⟨ts, r, hg⟩ := loose a
        exact .refuse hx.bind_error (hy.bind hg) ⟨m, List.mem_append_left _ hm, hmiss⟩

theorem hardens_ite {c : Prop} [Decidable c] {x x' y y' : Op Log.Journal α} (hx : x.Hardens x')
    (hy : y.Hardens y') : (if c then x else y).Hardens (if c then x' else y') := by
  split
  · exact hx
  · exact hy

end Op

open Op

namespace Builder

variable {b : Builder}

/-- The builder, lenient. -/
def loosen (b : Builder) : Builder := { b with strict := false }

section

variable (hb : b.strict = true)
include hb

/-- A strict builder refuses an action that a device lacks before the device can log it. -/
theorem lookup_hardens (d : Device) (name : Value) :
    (liftM (b.checkName d name) >>= fun _ => d.lookup name).Hardens
      (liftM (b.loosen.checkName d name) >>= fun _ => d.lookup name) := by
  have hcheck : b.checkName d name = d.require [name] := if_pos hb
  have hloose : b.loosen.checkName d name = .ok () := rfl
  have hrequire := d.require_singleton name
  have hlookup := d.lookup_logs name
  have silent {r : Except Fault (Option Action)} (h : (d.lookup name).Logs [] r) :
      (liftM (.ok () : Except Fault Unit) >>= fun _ => d.lookup name).Logs [] r :=
    (logs_liftM (.ok ())).bind h
  have refused {e : Fault} :
      (liftM (.error e : Except Fault Unit) >>= fun _ => d.lookup name).Logs [] (.error e) :=
    (logs_liftM (.error e)).bind_error
  rw [hcheck, hloose, hrequire]
  cases hfind : d.find? name with
  | error e =>
      rw [hfind] at hlookup
      exact .agree refused (silent hlookup) nofun
  | ok found =>
      rw [hfind] at hlookup
      cases found with
      | some a => exact .of_silent (silent hlookup)
      | none =>
          dsimp only at hlookup
          split at hlookup
          · exact .agree refused (silent hlookup) nofun
          · exact .refuse refused ((logs_liftM (.ok ())).bind hlookup)
              ⟨_, List.mem_cons_self, d, name, rfl⟩

/-- A press of a named action, whatever its parameters. -/
theorem press_hardens (d : Device) (name : Value) (p : Action → Except Fault Press) :
    let press : Op Log.Journal (Option Press) := do
      match ← d.lookup name with
      | some a => return some (← p a)
      | none => return none
    (liftM (b.checkName d name) >>= fun _ => press).Hardens
      (liftM (b.loosen.checkName d name) >>= fun _ => press) := by
  intro press
  rw [← Op.bind_assoc, ← Op.bind_assoc]
  refine (lookup_hardens hb d name).bind fun found => ?_
  cases found with
  | some a => exact (hardens_liftM _).bind fun _ => hardens_pure _
  | none => exact hardens_pure _

theorem pressNamed_hardens (d : Device) (name wait : Value) :
    (b.pressNamed d name wait).Hardens (b.loosen.pressNamed d name wait) :=
  press_hardens hb d name fun a => d.press a wait

theorem pressAll_hardens (d : Device) (names : List Value) :
    (b.pressAll d names).Hardens (b.loosen.pressAll d names) := by
  induction names with
  | nil => exact hardens_pure _
  | cons n names ih =>
      exact (pressNamed_hardens hb d n _).bind fun _ => ih.bind fun _ => hardens_pure _

theorem actionCommands_hardens (d : Device) (names : List Value) (wait : Value) :
    (b.actionCommands d names wait).Hardens (b.loosen.actionCommands d names wait) := by
  refine (pressAll_hardens hb d names).bind fun ps => hardens_ite (hardens_liftM _) ?_
  refine (hardens_liftM _).bind fun p => hardens_ite ?_ (hardens_pure _)
  exact (hardens_liftM _).bind fun _ => hardens_pure _

/-- A call appends the same commands to a strict builder and to a lenient one, unless it asks for
an action that is missing. -/
theorem commandsOf_hardens (c : Call Value) :
    (b.commandsOf c).Hardens (b.loosen.commandsOf c) := by
  have hactions := actionCommands_hardens hb
  cases c with
  | action d n w =>
      refine (hardens_liftM _).bind fun d => ?_
      exact (pressNamed_hardens hb d n w).bind fun _ => hardens_pure _
  | customAction d n x y t w =>
      refine (hardens_liftM _).bind fun d => ?_
      rw [← Op.bind_assoc, ← Op.bind_assoc (liftM (b.loosen.checkName d n))]
      have hpress := press_hardens hb d n fun a => d.press (a.adapt t x y) w
      exact hpress.bind fun _ => hardens_pure _
  | actions d ns ps w =>
      refine (hardens_liftM _).bind fun _ => (hardens_liftM _).bind fun _ => ?_
      exact (hardens_liftM _).bind fun _ => hactions _ _ _
  | repeatAction d n c w =>
      refine (hardens_liftM _).bind fun _ => (hardens_liftM _).bind fun _ => ?_
      exact hardens_ite (hardens_pure _) ((hardens_liftM _).bind fun _ => hactions _ _ _)
  | wait t => exact hardens_liftM _
  | exec fn args w =>
      exact (hardens_liftM _).bind fun _ => (hardens_liftM _).bind fun _ => hardens_pure _
  | query fn args => exact (hardens_liftM _).bind fun _ => hardens_pure _
  | typeText d v w =>
      exact (hardens_liftM _).bind fun _ => (hardens_liftM _).bind fun _ => hactions _ _ _
  | typeCoordinate d v w =>
      exact (hardens_liftM _).bind fun _ => (hardens_liftM _).bind fun _ => hactions _ _ _
  | typeNumber d v e s c w =>
      refine (hardens_liftM _).bind fun _ => hardens_ite (hardens_pure _) ?_
      exact (hardens_liftM _).bind fun _ => hactions _ _ _
  | _ => exact hardens_pure _

end

/-- How a call on a strict builder and the same on a lenient one go together. -/
inductive Answers (b : Builder) (c : Call Value) : Prop where
  | agree {rs : List Log.Record} {r : Except Fault (Builder × Reply)}
      (hard : (b.apply c).Logs rs r)
      (loose : (b.loosen.apply c).Logs rs (r.map fun p => (p.1.loosen, p.2)))
      (known : ∀ m ∈ rs, ¬ m.IsMiss) (strict : ∀ p, r = .ok p → p.1.strict = b.strict) :
      Answers b c
  | refuse {rs ss : List Log.Record} {e : Fault} {r : Except Fault (Builder × Reply)}
      (hard : (b.apply c).Logs rs (.error e)) (loose : (b.loosen.apply c).Logs ss r)
      (miss : ∃ m ∈ ss, m.IsMiss) : Answers b c

/-- A call that appends its commands and gives back what does not depend on the builder. -/
theorem answers_append (hb : b.strict = true) {c : Call Value} {reply : Reply}
    (happly : ∀ b : Builder,
      b.apply c = (b.commandsOf c >>= fun cs => pure (b.append cs, reply))) : b.Answers c := by
  have hard := happly b
  have loose := happly b.loosen
  rcases commandsOf_hardens hb c with ⟨h, h', known⟩ | ⟨h, h', m, hm, miss⟩
  · rename_i rs r
    cases r with
    | error e =>
        refine .agree (hard ▸ h.bind_error) (loose ▸ h'.bind_error) known fun p hp => ?_
        cases hp
    | ok cs =>
        have h₁ : (b.apply c).Logs (rs ++ []) _ := hard ▸ h.bind (logs_pure (b.append cs, reply))
        have h₂ : (b.loosen.apply c).Logs (rs ++ []) _ :=
          loose ▸ h'.bind (logs_pure (b.loosen.append cs, reply))
        rw [List.append_nil] at h₁ h₂
        refine .agree h₁ h₂ known fun p hp => ?_
        cases hp
        rfl
  · rename_i rs ss e r
    cases r with
    | error e' => exact .refuse (hard ▸ h.bind_error) (loose ▸ h'.bind_error) ⟨m, hm, miss⟩
    | ok cs =>
        have h₂ : (b.loosen.apply c).Logs (ss ++ []) _ :=
          loose ▸ h'.bind (logs_pure (b.loosen.append cs, reply))
        exact .refuse (hard ▸ h.bind_error) h₂ ⟨m, List.mem_append_left _ hm, miss⟩

/-- A call that logs nothing, and gives back what does not depend on the strictness. -/
theorem answers_silent {α : Type} {c : Call Value} (r : Except Fault α)
    (f : Builder → α → Builder × Reply) (hard : (b.apply c).Logs [] (r.map (f b)))
    (loose : (b.loosen.apply c).Logs [] (r.map (f b.loosen)))
    (hf : ∀ a, f b.loosen a = ((f b a).1.loosen, (f b a).2))
    (strict : ∀ a, (f b a).1.strict = b.strict) : b.Answers c := by
  refine .agree hard ?_ nofun fun p hp => ?_
  · have hmap : r.map (f b.loosen) = (r.map (f b)).map fun p => (p.1.loosen, p.2) := by
      cases r with
      | error e => rfl
      | ok a => exact congrArg Except.ok (hf a)
    rwa [← hmap]
  · cases r with
    | error e => cases hp
    | ok a =>
        cases hp
        exact strict a

/-- A call that leaves the strictness alone does the same to a strict builder and to a lenient one,
unless it asks for an action that is missing. -/
theorem apply_answers (hb : b.strict = true) {c : Call Value} (hc : ∀ v, c ≠ .setStrict v) :
    b.Answers c := by
  cases c with
  | clear =>
      exact answers_silent (.ok ()) (fun b _ => (b.clear, .nothing)) (logs_pure _) (logs_pure _)
        (fun _ => rfl) fun _ => rfl
  | truncate n =>
      exact answers_silent (b.stream.truncate n) (fun b s => ({ b with stream := s }, .nothing))
        (logs_map _ _) (logs_map _ _) (fun _ => rfl) fun _ => rfl
  | setStrict v => exact absurd rfl (hc v)
  | device n =>
      exact answers_silent (b.lookUp n) (fun b d => (b, .device d)) (logs_map _ _) (logs_map _ _)
        (fun _ => rfl) fun _ => rfl
  | commands =>
      exact answers_silent (.ok ()) (fun b _ => (b, .commands b.stream)) (logs_pure _) (logs_pure _)
        (fun _ => rfl) fun _ => rfl
  | misuse d =>
      have stops : ∃ e, (b.apply (.misuse d)).Logs [] (.error e) ∧
          (b.loosen.apply (.misuse d)).Logs [] (.error e) := by
        cases d with
        | none => exact ⟨_, logs_stop _, logs_stop _⟩
        | some d =>
            have hdevice : b.loosen.lookUp d = b.lookUp d := rfl
            rw [apply, apply, hdevice]
            cases b.lookUp d with
            | error e => exact ⟨e, logs_stop _, logs_stop _⟩
            | ok d => exact ⟨_, logs_stop _, logs_stop _⟩
      obtain ⟨e, hard, loose⟩ := stops
      exact .agree hard loose nofun fun _ hp => nomatch hp
  | typeNumber d v e s c w => exact answers_append hb fun _ => rfl
  | _ => exact answers_append hb fun _ => rfl

end Builder

/-! ## Workshops -/

namespace Workshop

variable {w t : Workshop} {id other : BuilderId}

/-- The workshop, where all builders are lenient. -/
def loosen (w : Workshop) : Workshop :=
  { w with benches := w.benches.map fun n => { n with builder := n.builder.loosen } }

@[simp] theorem builder_loosen (w : Workshop) (id : BuilderId) :
    w.loosen.builder id = (w.builder id).loosen := by
  rw [builder, builder, bench, bench, loosen, List.getElem?_map]
  cases w.benches[id]? <;> rfl

theorem program_loosen (w : Workshop) (id : BuilderId) :
    (w.loosen.bench id).program = (w.bench id).program := by
  rw [bench, bench, loosen, List.getElem?_map]
  cases w.benches[id]? <;> rfl

theorem setBuilder_loosen (id : BuilderId) (b : Builder) (w : Workshop) :
    (w.setBuilder id b).loosen = w.loosen.setBuilder id b.loosen := by
  refine eq_of_benches (fun i => ?_) rfl rfl rfl rfl
  rw [loosen, setBuilder, setBuilder, loosen, List.getElem?_map, List.getElem?_modify,
    List.getElem?_modify, List.getElem?_map]
  cases w.benches[i]? with
  | none => rfl
  | some n =>
      by_cases hi : id = i
      · simp [hi]
      · simp [hi]

theorem changeBuilder_loosen {f g : Builder → Builder}
    (h : (f (w.builder id)).loosen = g (w.builder id).loosen) :
    (w.changeBuilder id f).loosen = w.loosen.changeBuilder id g := by
  rw [changeBuilder, setBuilder_loosen, h, changeBuilder, builder_loosen]

theorem withBench_loosen {n : Bench} (h : n.builder.strict = false) (w : Workshop) :
    (w.withBench n).loosen = w.loosen.withBench n := by
  have hn : n.builder.loosen = n.builder := by rw [Builder.loosen, ← h]
  simp only [withBench, loosen, List.map_append, List.map_cons, List.map_nil, hn]

theorem lent_loosen (id other : BuilderId) (w : Workshop) :
    (w.lent id other).loosen = w.loosen.lent id other := by
  have hclear : (w.changeBuilder other Builder.clear).loosen =
      w.loosen.changeBuilder other Builder.clear := changeBuilder_loosen rfl
  rw [lent, lent, ← hclear]
  refine changeBuilder_loosen ?_
  rw [builder_loosen]
  rfl

end Workshop

/-! ## Steady programs -/

mutual

/-- Whether a step neither sets a strictness nor goes on after a fault, and makes only lenient
builders that do neither. -/
def Step.isSteady : Step → Bool
  | .call (.setStrict _) => false
  | .call _ => true
  | .block _ body => Program.isSteady body
  | .splice target _ => target.isSteady
  | .build _ => true
  | .raise _ => true
  | _ => false
termination_by structural s => s

/-- Whether a target is there already, or is a lenient builder with such a program. -/
def Target.isSteady : Target → Bool
  | .named _ => true
  | .fresh _ _ strict _ _ program => !strict && Program.isSteady program
termination_by structural t => t

/-- Whether all steps of a program are steady. -/
def Program.isSteady : List Step → Bool
  | [] => true
  | s :: ss => s.isSteady && Program.isSteady ss
termination_by structural ss => ss

end

namespace Workshop

variable {w t u : Workshop} {id other : BuilderId} {f : Builder → Builder}

/-- Whether the programs of all builders are steady. -/
def Steady (w : Workshop) : Prop := ∀ i, Program.isSteady (w.bench i).program = true

/-- What steady programs keep: the strictness of each builder, which is none where there is no
builder, and that all programs are steady. -/
structure Kept (w t : Workshop) : Prop where
  grows : w.benches.length ≤ t.benches.length
  strict : ∀ i, (t.builder i).strict = (w.builder i).strict
  steady : w.Steady → t.Steady

theorem Kept.refl (w : Workshop) : Kept w w := ⟨Nat.le_refl _, fun _ => rfl, fun h => h⟩

theorem Kept.trans (h : Kept w t) (h' : Kept t u) : Kept w u :=
  ⟨Nat.le_trans h.grows h'.grows, fun i => (h'.strict i).trans (h.strict i), fun hw =>
    h'.steady (h.steady hw)⟩

theorem steady_changeBuilder (h : w.Steady) (id : BuilderId) (f : Builder → Builder) :
    (w.changeBuilder id f).Steady := by
  intro i
  rw [changeBuilder, program_setBuilder]
  exact h i

theorem kept_change (hf : (f (w.builder id)).strict = (w.builder id).strict) :
    Kept w (w.changeBuilder id f) := by
  refine ⟨Nat.le_of_eq (length_changeBuilder id f w).symm, fun i => ?_, fun h =>
    steady_changeBuilder h id f⟩
  rcases builder_changeBuilder_cases id f w i with hi | ⟨rfl, hi⟩
  · rw [hi]
  · rw [hi, hf]

theorem kept_withBench {n : Bench} (hs : n.builder.strict = false)
    (hp : Program.isSteady n.program = true) : Kept w (w.withBench n) := by
  refine ⟨(extends_withBench n w).grows, fun i => ?_, fun h i => ?_⟩
  · rcases bench_withBench_cases n w i with hi | ⟨hnone, hi⟩
    · rw [builder, builder, hi]
    · rw [builder, builder, hi, hnone, hs]
  · rcases bench_withBench_cases n w i with hi | ⟨-, hi⟩
    · rw [hi]
      exact h i
    · rw [hi]
      exact hp

end Workshop

namespace Op

open Workshop

variable {α β : Type} {x : Op Workshop α} {w : Workshop} {id : BuilderId}

/-- How an operation goes in a workshop and in the same one with all builders lenient. -/
inductive Agrees (x : Op Workshop α) (w : Workshop) : Prop where
  /-- Both end alike and tell the same, and no action is missed. -/
  | agree {rs : List Log.Record} {r : Except Fault α} {t : Workshop} (hard : x.Tells w rs r t)
      (loose : x.Tells w.loosen rs r t.loosen) (known : ∀ m ∈ rs, ¬ m.IsMiss)
      (kept : Kept w t) : Agrees x w
  /-- The first one fails, and the second one tells that an action is missed. -/
  | refuse {rs ss : List Log.Record} {e : Fault} {r : Except Fault α} {t u : Workshop}
      (hard : x.Tells w rs (.error e) t) (loose : x.Tells w.loosen ss r u)
      (miss : ∃ m ∈ ss, m.IsMiss) : Agrees x w

/-- An operation that tells nothing. -/
theorem agrees_silent {r : Except Fault α} {t : Workshop} (hard : x.Tells w [] r t)
    (loose : x.Tells w.loosen [] r t.loosen) (kept : Kept w t) : x.Agrees w :=
  .agree hard loose nofun kept

theorem agrees_pure (a : α) (w : Workshop) : (pure a : Op Workshop α).Agrees w :=
  agrees_silent (tells_pure a w) (tells_pure a _) (.refl w)

theorem agrees_stop (e : Fault) (w : Workshop) : (stop e : Op Workshop α).Agrees w :=
  agrees_silent (tells_stop e w) (tells_stop e _) (.refl w)

theorem agrees_change (f : Builder → Builder) (hf : ∀ b, (f b).loosen = f b.loosen)
    (hs : ∀ b, (f b).strict = b.strict) (id : BuilderId) (w : Workshop) :
    (change id f).Agrees w := by
  refine agrees_silent (tells_change id f w) ?_ (kept_change (hs _))
  rw [changeBuilder_loosen (hf (w.builder id))]
  exact tells_change id f w.loosen

theorem Agrees.bind {f : α → Op Workshop β} (hx : x.Agrees w) (ht : ∀ a, (f a).Telling)
    (hf : ∀ a t, Kept w t → (f a).Agrees t) : (x >>= f).Agrees w := by
  rcases hx with ⟨hard, loose, known, kept⟩ | ⟨hard, loose, m, hm, miss⟩
  · rename_i rs r t
    cases r with
    | error e => exact .agree hard.bind_error loose.bind_error known kept
    | ok a =>
        rcases hf a t kept with ⟨hard', loose', known', kept'⟩ | ⟨hard', loose', m, hm, miss⟩
        · refine .agree (hard.bind hard') (loose.bind loose') (fun m hm => ?_) (kept.trans kept')
          rcases List.mem_append.mp hm with hm | hm
          · exact known m hm
          · exact known' m hm
        · exact .refuse (hard.bind hard') (loose.bind loose')
            ⟨m, List.mem_append_right _ hm, miss⟩
  · rename_i rs ss e r t u
    cases r with
    | error e' => exact .refuse hard.bind_error loose.bind_error ⟨m, hm, miss⟩
    | ok a =>
        obtain ⟨ts, r, v, hf⟩ := ht a u
        exact .refuse hard.bind_error (loose.bind hf) ⟨m, List.mem_append_left _ hm, miss⟩

/-- Giving another result. -/
theorem Agrees.then_pure (hx : x.Agrees w) (b : β) : (x >>= fun _ => pure b).Agrees w :=
  hx.bind (fun _ => telling_pure b) fun _ t _ => agrees_pure b t

/-- Going on with a result that is there. -/
theorem agrees_liftM_bind {r : Except Fault α} {f : α → Op Workshop β}
    (hf : ∀ a, r = .ok a → (f a).Agrees w) : ((liftM r : Op Workshop α) >>= f).Agrees w := by
  cases r with
  | error e => exact agrees_stop e w
  | ok a => exact hf a rfl

/-- Reading what does not depend on the strictness. -/
theorem agrees_read_bind {g : Builder → α} {f : α → Op Workshop β}
    (hf : ∀ b, f (g b.loosen) = f (g b)) (h : (f (g (w.builder id))).Agrees w) :
    (read id g >>= f).Agrees w := by
  have hloose {ss : List Log.Record} {r : Except Fault β} {u : Workshop}
      (h : (f (g (w.builder id))).Tells w.loosen ss r u) :
      (read id g >>= f).Tells w.loosen ss r u := by
    rw [← hf, ← builder_loosen] at h
    exact fun j => h j
  rcases h with ⟨hard, loose, known, kept⟩ | ⟨hard, loose, miss⟩
  · exact .agree (fun j => hard j) (hloose loose) known kept
  · exact .refuse (fun j => hard j) (hloose loose) miss

theorem agrees_ite {c : Prop} [Decidable c] {y : Op Workshop α} (hx : x.Agrees w)
    (hy : y.Agrees w) : (if c then x else y).Agrees w := by
  split
  · exact hx
  · exact hy

section

variable {f : Builder → Builder} (hf : ∀ b, (f b).loosen = f b.loosen)
  (hs : ∀ b, (f b).strict = b.strict)
include hf hs

theorem Agrees.ensure (hx : x.Agrees w) (id : BuilderId) :
    (x.ensure (changeBuilder id f)).Agrees w := by
  rcases hx with ⟨hard, loose, known, kept⟩ | ⟨hard, loose, miss⟩
  · refine .agree (hard.ensure id f) ?_ known (kept.trans (kept_change (hs _)))
    rw [changeBuilder_loosen (hf _)]
    exact loose.ensure id f
  · exact .refuse (hard.ensure id f) (loose.ensure id f) miss

theorem Agrees.onFault (hx : x.Agrees w) (id : BuilderId) :
    (x.onFault (changeBuilder id f)).Agrees w := by
  rcases hx with ⟨hard, loose, known, kept⟩ | ⟨hard, loose, miss⟩
  · rename_i rs r t
    cases r with
    | error e =>
        refine .agree (hard.onFault_error id f) ?_ known (kept.trans (kept_change (hs _)))
        rw [changeBuilder_loosen (hf _)]
        exact loose.onFault_error id f
    | ok a => exact .agree (hard.onFault_ok _) (loose.onFault_ok _) known kept
  · rename_i rs ss e r t u
    cases r with
    | error e' => exact .refuse (hard.onFault_error id f) (loose.onFault_error id f) miss
    | ok a => exact .refuse (hard.onFault_error id f) (loose.onFault_ok _) miss

end

end Op

namespace Workshop

variable {w t : Workshop} {id other : BuilderId} {rs : List Log.Record} {context : Value}

/-! ### Calls, blocks and splices -/

theorem call_tells {c : Call Value} {r : Except Fault (Builder × Reply)}
    (h : ((w.builder id).apply c).Logs rs r) :
    (call id c).Tells w rs (r.map Prod.snd)
      (match r with
        | .ok p => w.setBuilder id p.1
        | .error _ => w) := by
  intro j
  rw [run_call, show (w.withJournal j).builder id = w.builder id from rfl, h]
  cases r <;> rfl

theorem call_agrees {c : Call Value} (hid : (w.builder id).strict = true)
    (hc : ∀ v, c ≠ .setStrict v) : (call id c).Agrees w := by
  rcases Builder.apply_answers hid hc with ⟨hard, loose, known, strict⟩ | ⟨hard, loose, miss⟩
  · rename_i rs r
    rw [← builder_loosen] at loose
    have hloose := call_tells loose
    cases r with
    | error e => exact .agree (call_tells hard) hloose known (.refl w)
    | ok p =>
        refine .agree (call_tells hard) ?_ known (kept_change (f := fun _ => p.1) (strict p rfl))
        rw [setBuilder_loosen]
        exact hloose
  · rw [← builder_loosen] at loose
    exact .refuse (call_tells hard) (call_tells loose) miss

theorem addOwnQuery_agrees (id : BuilderId) (w : Workshop) : (addOwnQuery id).Agrees w := by
  have tells (w : Workshop) : (addOwnQuery id).Tells w []
      ((w.builder id).addOwnQuery.map fun _ => ())
      (match (w.builder id).addOwnQuery with
        | .ok b => w.setBuilder id b
        | .error _ => w) := by
    intro j
    rw [addOwnQuery, read, bind_assoc, run_state_bind, pure_bind, run_liftM_bind,
      show (w.withJournal j).builder id = w.builder id from rfl]
    cases (w.builder id).addOwnQuery <;> rfl
  have hloosen (b : Builder) : b.loosen.addOwnQuery = b.addOwnQuery.map Builder.loosen := by
    rw [Builder.addOwnQuery, Builder.addOwnQuery]
    show (if !b.fn.isSet then _ else _) = _
    split
    · rfl
    · show (b.queryCommand b.fn (.list b.args) >>= _) = Except.map _ (_ >>= _)
      cases b.queryCommand b.fn (.list b.args) <;> rfl
  have hard := tells w
  have loose := tells w.loosen
  rw [builder_loosen, hloosen] at loose
  cases hq : (w.builder id).addOwnQuery with
  | error e =>
      rw [hq] at hard loose
      exact .agree hard loose (fun _ hm => absurd hm List.not_mem_nil) (.refl w)
  | ok b =>
      rw [hq] at hard loose
      obtain ⟨-, xs, rfl⟩ := Builder.addOwnQuery_eq_ok hq
      refine .agree hard ?_ (fun _ hm => absurd hm List.not_mem_nil)
        (kept_change (f := fun _ => _) rfl)
      rw [setBuilder_loosen]
      exact loose

/-- A block goes like its body. -/
theorem block_agrees {h : BlockHead Value} {body : Op Workshop Unit} (ht : body.Telling)
    (hbody : ∀ t, Kept w t → body.Agrees t) : (block id h body).Agrees w := by
  refine agrees_liftM_bind fun opener _ => ?_
  have hopen : (openBlock id h.condition opener).Agrees w := by
    refine agrees_read_bind (fun _ => rfl) (agrees_ite (agrees_stop _ w) ?_)
    let push (b : Builder) : Builder :=
      { b.append [opener] with openConditions := b.openConditions ++ [h.condition] }
    exact (agrees_change push (fun _ => rfl) (fun _ => rfl) id w).then_pure _
  refine hopen.bind (fun start => ?_) fun start t hkept => ?_
  · exact ((ht.onFault id _).ensure id _).bind fun _ => telling_change id _
  · have hinner := ((hbody t hkept).onFault (fun _ => rfl) (fun _ => rfl) id
      (f := fun b => { b with stream := b.stream.take start })).ensure (fun _ => rfl) (fun _ => rfl)
        id (f := fun b => { b with openConditions := b.openConditions.dropLast })
    exact hinner.bind (fun _ => telling_change id _) fun _ u _ =>
      agrees_change (·.append [h.closer]) (fun _ => rfl) (fun _ => rfl) id u

theorem takeOver_agrees (id other : BuilderId) (w : Workshop) : (takeOver id other).Agrees w := by
  refine agrees_read_bind (fun _ => rfl) (agrees_read_bind (fun _ => rfl) ?_)
  refine agrees_ite (agrees_stop _ w) ?_
  let added := (w.builder other).stream
  have happend := agrees_change (·.append added) (fun _ => rfl) (fun _ => rfl) id w
  refine happend.bind (fun _ => ?_) fun _ t _ => ?_
  · exact (telling_read other _).bind fun _ => Logging.telling ⟨_, _, logs_say _ _ _⟩
  · refine agrees_read_bind (fun _ => rfl) ?_
    refine .agree ((logs_say _ _ _).tells t) ((logs_say _ _ _).tells t.loosen) ?_ (.refl t)
    rintro m hm ⟨d, name, rfl⟩
    cases List.mem_singleton.mp hm

/-- The workshop that a build on loan left, where the builder has its own things back. -/
def returned (other : BuilderId) (w t : Workshop) : Workshop :=
  t.changeBuilder other (giveBack ((w.changeBuilder other Builder.clear).builder other))

section

variable {build : Building} {u : Unit} {e : Fault} {r : Except Fault Unit} {v : Workshop}
  {ss : List Log.Record}

theorem tells_splice (hbuild : (build other context).Tells (w.lent id other) rs (.ok u) t)
    (htake : (takeOver id other).Tells (returned other w t) ss r v) :
    (splice build id other context).Tells w (rs ++ ss) r v := by
  intro j
  have hrun : (build other context).run ((w.withJournal j).lent id other) = _ := hbuild j
  rw [run_splice, hrun, Log.Journal.addAll_append]
  exact htake _

theorem tells_splice_error
    (hbuild : (build other context).Tells (w.lent id other) rs (.error e) t) :
    (splice build id other context).Tells w rs (.error e) (returned other w t) := by
  intro j
  have hrun : (build other context).run ((w.withJournal j).lent id other) = _ := hbuild j
  rw [run_splice, hrun]
  rfl

end

/-- Giving a builder its own things back keeps what building it on loan keeps. -/
theorem kept_returned (h : Kept (w.lent id other) t) : Kept w (returned other w t) := by
  have hgrows : w.benches.length ≤ t.benches.length :=
    Nat.le_trans (extends_lent id other w).grows h.grows
  have hclear : ((w.changeBuilder other Builder.clear).builder other).strict =
      (w.builder other).strict := (kept_change (f := Builder.clear) rfl).strict other
  rw [returned]
  refine ⟨?_, fun i => ?_, fun hw => steady_changeBuilder (h.steady ?_) _ _⟩
  · rwa [length_changeBuilder]
  · by_cases hi : i = other
    · subst hi
      by_cases hlt : i < t.benches.length
      · rw [builder_changeBuilder_self hlt]
        exact hclear
      · have hle := Nat.le_of_not_lt hlt
        rw [builder_of_length_le (w := w) (Nat.le_trans hgrows hle), builder_of_length_le]
        rwa [length_changeBuilder]
    · rw [builder_changeBuilder_of_ne t hi, h.strict i, builder_lent_of_ne hi]
  · exact steady_changeBuilder (steady_changeBuilder hw _ _) _ _

theorem returned_loosen (other : BuilderId) (w t : Workshop) :
    (returned other w t).loosen = returned other w.loosen t.loosen := by
  have hclear : (w.changeBuilder other Builder.clear).loosen =
      w.loosen.changeBuilder other Builder.clear := changeBuilder_loosen rfl
  rw [returned, returned, ← hclear, builder_loosen]
  exact changeBuilder_loosen rfl

/-- A splice goes like building the other builder on loan. -/
theorem splice_agrees {build : Building} (hbuild : (build other context).Agrees (w.lent id other)) :
    (splice build id other context).Agrees w := by
  rcases hbuild with ⟨hard, loose, known, kept⟩ | ⟨hard, loose, m, hm, miss⟩
  · rename_i rs r t
    rw [lent_loosen] at loose
    have hback := kept_returned kept
    have hloosen := returned_loosen other w t
    cases r with
    | error e =>
        refine .agree (tells_splice_error hard) ?_ known hback
        rw [hloosen]
        exact tells_splice_error loose
    | ok u =>
        rcases takeOver_agrees id other (returned other w t) with
          ⟨hard', loose', known', kept'⟩ | ⟨hard', loose', m, hm, miss⟩
        · rw [hloosen] at loose'
          refine .agree (tells_splice hard hard') (tells_splice loose loose') (fun m hm => ?_)
            (hback.trans kept')
          rcases List.mem_append.mp hm with hm | hm
          · exact known m hm
          · exact known' m hm
        · rw [hloosen] at loose'
          exact .refuse (tells_splice hard hard') (tells_splice loose loose')
            ⟨m, List.mem_append_right _ hm, miss⟩
  · rename_i rs ss e r t u
    rw [lent_loosen] at loose
    cases r with
    | error e' => exact .refuse (tells_splice_error hard) (tells_splice_error loose) ⟨m, hm, miss⟩
    | ok v =>
        obtain ⟨ts, r, v, htake⟩ := takeOver_telling id other (returned other w.loosen u)
        exact .refuse (tells_splice_error hard) (tells_splice loose htake)
          ⟨m, List.mem_append_left _ hm, miss⟩

/-- A target is found in a workshop where all builders are lenient as it is found in the workshop,
if a new one is lenient and its program is steady. -/
theorem find_agrees {target : Target} (h : target.isSteady = true) (w : Workshop) :
    (find target).Agrees w := by
  cases target with
  | named n =>
      cases hn : w.names.lookup n with
      | none =>
          have tells (j : Log.Journal) (v : Workshop) (hv : v.names = w.names) :
              (find (.named n)).run (v.withJournal j) =
                (.error (.missingKey n), v.withJournal j) := by
            rw [run_named, withJournal, hv, hn]
          exact agrees_silent (tells · w rfl) (tells · w.loosen rfl) (.refl w)
      | some i =>
          have tells (j : Log.Journal) (v : Workshop) (hv : v.names = w.names) :
              (find (.named n)).run (v.withJournal j) = (.ok i, v.withJournal j) := by
            rw [run_named, withJournal, hv, hn]
          exact agrees_silent (tells · w rfl) (tells · w.loosen rfl) (.refl w)
  | fresh kind equipped strict fn args program =>
      rw [Target.isSteady, Bool.and_eq_true, Bool.not_eq_true'] at h
      obtain ⟨rfl, hprogram⟩ := h
      cases hx : (if kind.asks then args.itemsIfSet else .ok [] : Except Fault (List Value)) with
      | error e =>
          have tells (j : Log.Journal) (v : Workshop) :
              (find (.fresh kind equipped false fn args program)).run (v.withJournal j) =
                (.error e, v.withJournal j) := by
            rw [run_fresh, hx]
          exact agrees_silent (tells · w) (tells · w.loosen) (.refl w)
      | ok xs =>
          let n := freshBench kind equipped false fn xs program w
          have hloosen : (w.withBench n).loosen = w.loosen.withBench n := withBench_loosen rfl w
          have hlength : w.loosen.benches.length = w.benches.length := List.length_map _
          refine agrees_silent (r := .ok w.benches.length) (t := w.withBench n) (fun j => ?_)
            (fun j => ?_) (kept_withBench rfl hprogram)
          · rw [run_fresh, hx]
            rfl
          · rw [hloosen, run_fresh, hx, ← hlength]
            rfl

end Workshop

/-! ## Programs and builds -/

/-- Whether building a strict builder agrees with building it in the workshop where all builders are
lenient. -/
def Building.Agreeing (build : Building) : Prop :=
  ∀ (id : BuilderId) (context : Value) (w : Workshop),
    (id < w.benches.length → (w.builder id).strict = true) → w.Steady →
      (build id context).Agrees w

variable {build : Building}

mutual

/-- A steady step of a strict builder agrees with the same step of a lenient one. -/
theorem Step.run_agrees (ht : ∀ id context, (build id context).Telling) (hb : build.Agreeing) :
    ∀ (s : Step) {id : BuilderId} {context : Value} {w : Workshop}, s.isSteady = true →
      (w.builder id).strict = true → w.Steady → (s.run build id context).Agrees w
  | .call c, id, context, w => by
      intro hs hid _
      rw [Step.run]
      refine agrees_liftM_bind fun c' hc => ?_
      refine Workshop.call_agrees hid (Call.resolve_ne_setStrict (fun v hv => ?_) context c' hc)
      rw [hv] at hs
      cases hs
  | .block head body, id, context, w => by
      intro hs hid hw
      rw [Step.isSteady] at hs
      rw [Step.run]
      refine agrees_liftM_bind fun h _ => Agrees.then_pure ?_ _
      refine Workshop.block_agrees (Program.run_telling ht id context body) fun t hkept => ?_
      exact Program.run_agrees ht hb body hs ((hkept.strict id).trans hid) (hkept.steady hw)
  | .splice target c, id, context, w => by
      intro hs hid hw
      rw [Step.isSteady] at hs
      rw [Step.run]
      refine (Workshop.find_agrees hs w).bind (fun other => ?_) fun other t hkept => ?_
      · refine (telling_liftM _).bind fun context' => ?_
        exact (Workshop.splice_telling ht id other context').bind fun _ => telling_pure _
      · refine agrees_liftM_bind fun context' _ => Agrees.then_pure ?_ _
        have hstrict : (t.builder id).strict = true := (hkept.strict id).trans hid
        have hsteady : (t.lent id other).Steady :=
          Workshop.steady_changeBuilder (Workshop.steady_changeBuilder (hkept.steady hw) _ _) _ _
        exact Workshop.splice_agrees (hb other context' _ (Workshop.strict_lent hstrict) hsteady)
  | .build c, id, context, w => by
      intro _ hid hw
      rw [Step.run]
      exact agrees_liftM_bind fun context' _ => (hb id context' w (fun _ => hid) hw).then_pure _
  | .raise f, id, context, w => by
      intro _ _ _
      rw [Step.run]
      exact agrees_stop f w
  | .attempt _, _, _, _ => nofun
  | .on _ _, _, _, _ => nofun
  | .inspect _, _, _, _ => nofun
termination_by structural s => s

/-- So do steady steps in order. -/
theorem Program.run_agrees (ht : ∀ id context, (build id context).Telling) (hb : build.Agreeing) :
    ∀ (ss : List Step) {id : BuilderId} {context : Value} {w : Workshop},
      Program.isSteady ss = true → (w.builder id).strict = true → w.Steady →
        (Program.run build id context ss).Agrees w
  | [], id, context, w => by
      intro _ _ _
      rw [Program.run]
      exact agrees_pure () w
  | s :: ss, id, context, w => by
      intro hs hid hw
      rw [Program.isSteady, Bool.and_eq_true] at hs
      obtain ⟨hs, hss⟩ := hs
      rw [Program.run]
      refine (Step.run_agrees ht hb s hs hid hw).bind (fun _ => ?_) fun _ t hkept => ?_
      · exact Program.run_telling ht id context ss
      · exact Program.run_agrees ht hb ss hss ((hkept.strict id).trans hid) (hkept.steady hw)
termination_by structural ss => ss

end

/-- Building agrees, to whatever depth builders build inside one another. -/
theorem Builder.build_agrees (depth : Nat) : (Builder.build depth).Agreeing := by
  induction depth with
  | zero => exact fun _ _ w _ _ => agrees_stop _ w
  | succ depth ih =>
      intro id context w hid hw
      have htelling := Builder.build_telling depth
      -- an operation of the kind's own does what the build does, in both workshops
      have of_run {x : Op Workshop Unit} (hx : x.Agrees w)
          (h : ∀ v : Workshop, (v.builder id).kind = (w.builder id).kind →
            (v.bench id).program = (w.bench id).program →
              (Builder.build (depth + 1) id context).run v = x.run v) :
          (Builder.build (depth + 1) id context).Agrees w := by
        have hkind : (w.loosen.builder id).kind = (w.builder id).kind := by
          rw [Workshop.builder_loosen]
          rfl
        have hloose (j : Log.Journal) := h (w.loosen.withJournal j) hkind (w.program_loosen id)
        rcases hx with ⟨hard, loose, known, kept⟩ | ⟨hard, loose, miss⟩
        · exact .agree (fun j => (h (w.withJournal j) rfl rfl).trans (hard j))
            (fun j => (hloose j).trans (loose j)) known kept
        · exact .refuse (fun j => (h (w.withJournal j) rfl rfl).trans (hard j))
            (fun j => (hloose j).trans (loose j)) miss
      by_cases hlt : id < w.benches.length
      · have hprogram :
            (Program.run (Builder.build depth) id context (w.bench id).program).Agrees w :=
          Program.run_agrees htelling ih _ (hw id) (hid hlt) hw
        cases hk : (w.builder id).kind with
        | plain =>
            refine of_run (agrees_stop (.noBuild BuilderKind.plain.name) w) fun v hv _ => ?_
            rw [run_build, hv, hk]
            rfl
        | setup =>
            let setUp (b : Builder) : Builder := b.append b.setupCommands
            refine of_run (agrees_change setUp (fun _ => rfl) (fun _ => rfl) id w) fun v hv _ => ?_
            rw [run_build, hv, hk]
            rfl
        | teardown =>
            refine of_run (agrees_change (·.append teardownCommands) (fun _ => rfl) (fun _ => rfl)
              id w) fun v hv _ => ?_
            rw [run_build, hv, hk]
            rfl
        | query =>
            refine of_run (Workshop.addOwnQuery_agrees id w) fun v hv _ => ?_
            rw [run_build, hv, hk]
        | script =>
            refine of_run hprogram fun v hv hp => ?_
            rw [run_build, hv, hk, hp]
        | scriptQuery =>
            refine of_run (hprogram.bind (fun _ => Workshop.addOwnQuery_telling id) fun _ t _ =>
              Workshop.addOwnQuery_agrees id t) fun v hv hp => ?_
            rw [run_build, hv, hk, hp]
      · have hplain : (w.builder id).kind = .plain := by
          rw [Workshop.builder_of_length_le (Nat.le_of_not_lt hlt)]
        refine of_run (agrees_stop (.noBuild BuilderKind.plain.name) w) fun v hv _ => ?_
        rw [run_build, hv, hplain]
        rfl

/-! ## Strict runs -/

namespace Workshop

variable {w t : Workshop} {id : BuilderId}

/-- The workshop with one builder made strict. -/
def harden (id : BuilderId) (w : Workshop) : Workshop :=
  w.changeBuilder id fun b => { b with strict := true }

@[simp] theorem journal_harden (id : BuilderId) (w : Workshop) :
    (w.harden id).journal = w.journal := rfl

theorem stream_harden (id i : BuilderId) (w : Workshop) :
    ((w.harden id).builder i).stream = (w.builder i).stream := by
  rcases builder_changeBuilder_cases id (fun b => { b with strict := true }) w i with hi | ⟨rfl, hi⟩
  · rw [harden, hi]
  · rw [harden, hi]

theorem getElem?_loosen (w : Workshop) (i : BuilderId) :
    w.loosen.benches[i]? =
      w.benches[i]?.map fun n => { n with builder := n.builder.loosen } :=
  List.getElem?_map

/-- Where no other builder is strict than one, the lenient workshop with this one made strict is the
workshop itself. -/
theorem harden_loosen (hid : (w.builder id).strict = true)
    (h : ∀ i, i ≠ id → (w.builder i).strict = false) : w.loosen.harden id = w := by
  refine eq_of_benches (fun i => ?_) rfl rfl rfl rfl
  rw [harden, changeBuilder, setBuilder, List.getElem?_modify, getElem?_loosen, builder_loosen]
  cases hi : w.benches[i]? with
  | none => rfl
  | some n =>
      have hn : w.builder i = n.builder := by rw [builder, bench, hi, Option.getD_some]
      by_cases hne : id = i
      · subst hne
        have hsame : ({ n.builder.loosen with strict := true } : Builder) = n.builder := by
          rw [← hn, Builder.loosen, ← hid]
        simp [hn, hsame]
      · have hsame : n.builder.loosen = n.builder := by
          rw [Builder.loosen, ← h i (Ne.symm hne), hn]
        simp [hne, hsame]

/-- Making a builder strict and then all of them lenient changes nothing where all are lenient. -/
theorem loosen_harden (h : ∀ i, (w.builder i).strict = false) (id : BuilderId) :
    (w.harden id).loosen = w := by
  have hloosen (b : Builder) (hb : b.strict = false) : b.loosen = b := by
    rw [Builder.loosen, ← hb]
  refine eq_of_benches (fun i => ?_) rfl rfl rfl rfl
  rw [getElem?_loosen, harden, changeBuilder, setBuilder, List.getElem?_modify]
  cases hi : w.benches[i]? with
  | none => rfl
  | some n =>
      have hn : w.builder i = n.builder := by rw [builder, bench, hi, Option.getD_some]
      have hsame : n.builder.loosen = n.builder := hloosen _ (hn ▸ h i)
      by_cases hne : id = i
      · subst hne
        have hstrict : ({ n.builder with strict := true } : Builder).loosen = n.builder := hsame
        simp [hn, hstrict]
      · simp [hne, hsame]

end Workshop

/-- A strict builder only refuses.  In a workshop where all builders are lenient, a run of a program
with one builder made strict succeeds just when the lenient run succeeds and tells of no action that
is missed.  Both runs then build the same commands and log the same records, and end in the same
workshop but for the strictness. -/
theorem Program.strict_run_iff (depth : Nat) {w : Workshop} {id : BuilderId} (context : Value)
    {steps : Program} (hid : id < w.benches.length) (hlenient : ∀ i, (w.builder i).strict = false)
    (hsteady : Program.isSteady steps = true) (hw : w.Steady) :
    let run := Program.run (Builder.build depth) id context steps
    let hard := run.run (w.harden id)
    let loose := run.run w
    (hard.1 = .ok () ↔ loose.1 = .ok () ∧ ∀ m ∈ run.told w, ¬ m.IsMiss) ∧
      (hard.1 = .ok () →
        (∀ i, (hard.2.builder i).stream = (loose.2.builder i).stream) ∧
        run.told (w.harden id) = run.told w ∧ hard.2.journal = loose.2.journal ∧
        hard.2 = loose.2.harden id) := by
  have hstrict : ((w.harden id).builder id).strict = true := by
    rw [Workshop.harden, Workshop.builder_changeBuilder_self hid]
  have hothers : ∀ i, i ≠ id → ((w.harden id).builder i).strict = false := by
    intro i hi
    rw [Workshop.harden, Workshop.builder_changeBuilder_of_ne w hi]
    exact hlenient i
  have hagrees : (Program.run (Builder.build depth) id context steps).Agrees (w.harden id) :=
    Program.run_agrees (Builder.build_telling depth) (Builder.build_agrees depth) steps hsteady
      hstrict (Workshop.steady_changeBuilder hw _ _)
  intro run hard loose
  rcases hagrees with ⟨hh, hl, known, kept⟩ | ⟨hh, hl, m, hm, miss⟩
  · rename_i rs r t
    rw [Workshop.loosen_harden hlenient] at hl
    have hhard : hard = (r, t.withJournal (w.journal.addAll rs)) := hh.run_eq
    have hloose : loose = (r, t.loosen.withJournal (w.journal.addAll rs)) := hl.run_eq
    have htold : run.told (w.harden id) = rs ∧ run.told w = rs := ⟨hh.told_eq, hl.told_eq⟩
    have hback : t.loosen.harden id = t := Workshop.harden_loosen
      ((kept.strict id).trans hstrict) fun i hi => (kept.strict i).trans (hothers i hi)
    have hend : hard.2 = loose.2.harden id := by
      rw [hhard, hloose]
      exact congrArg (Workshop.withJournal _) hback.symm
    refine ⟨?_, fun _ => ⟨fun i => ?_, htold.1.trans htold.2.symm, ?_, hend⟩⟩
    · rw [hhard, hloose, htold.2]
      exact ⟨fun hr => ⟨hr, known⟩, And.left⟩
    · rw [hend, Workshop.stream_harden]
    · rw [hend, Workshop.journal_harden]
  · rename_i rs ss e r t u
    rw [Workshop.loosen_harden hlenient] at hl
    have hfails : hard.1 ≠ .ok () := by
      have hhard : hard = _ := hh.run_eq
      rw [hhard]
      exact nofun
    refine ⟨⟨fun h => absurd h hfails, fun h => ?_⟩, fun h => absurd h hfails⟩
    have htold : run.told w = ss := hl.told_eq
    exact absurd miss (h.2 m (htold ▸ hm))

namespace Workshop

/-- A builder with a keypad, and one that types on the same keypad what its context says. -/
def keypad : Workshop :=
  let keys := (["1", "2", "ENT"].map fun n => { name := .text n, code := .int 3001 } : List Action)
  let device : Device := { id := .int 25, name := .text "UFC", actions := keys }
  let airframe : Airframe := { name := .text "F-16", devices := [device] }
  { benches :=
      [⟨{ airframe := some airframe }, []⟩,
        ⟨{ kind := .script, airframe := some airframe },
          [.call (.typeText (.named (.value (.text "UFC"))) (.context "steerpoint")
            (.value (.int 0)))]⟩]
    names := [("typing", 1)] }

/-- Types inside a block what the context says, and enters it. -/
def typing : Program :=
  [.block ⟨.onceIf, .value (.text "ready"), .value (.bool true), .value .null, .value .null⟩
    [.splice (.named "typing") (.value (.object [("steerpoint", .text "21")]))],
    .call (.action (.named (.value (.text "UFC"))) (.context "enter") (.value (.int 0)))]

theorem strict_run_iff_typing :
    let run (enter : String) :=
      Program.run (Builder.build 2) 0 (.object [("enter", .text enter)]) typing
    ((run "ENT").run keypad).1 = .ok () ∧
      (((run "ENT").run (keypad.harden 0)).2.builder 0).stream =
        (((run "ENT").run keypad).2.builder 0).stream ∧
      (((run "ENT").run keypad).2.builder 0).stream.length = 5 ∧
      ((run "ENTR").run keypad).1 = .ok () ∧ ¬ ∀ m ∈ (run "ENTR").told keypad, ¬ m.IsMiss := by
  have hlenient : ∀ i, (keypad.builder i).strict = false := by
    intro i
    rcases i with _ | _ | i
    · rfl
    · rfl
    · rfl
  have hsteady : keypad.Steady := by
    intro i
    rcases i with _ | _ | i
    · rfl
    · rfl
    · rfl
  have hid : 0 < keypad.benches.length := by decide
  have hcalls : Program.isSteady typing = true := rfl
  obtain ⟨hknown, hsame⟩ := Program.strict_run_iff 2 (.object [("enter", .text "ENT")]) hid
    hlenient hcalls hsteady
  obtain ⟨htypo, -⟩ := Program.strict_run_iff 2 (.object [("enter", .text "ENTR")]) hid
    hlenient hcalls hsteady
  have hok := hknown.mp rfl
  refine ⟨hok.1, (hsame rfl).1 0, rfl, rfl, fun hnone => ?_⟩
  exact absurd (htypo.mpr ⟨rfl, hnone⟩) nofun

end Workshop

end Cockpit
