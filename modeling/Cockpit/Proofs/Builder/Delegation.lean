import Cockpit.Proofs.Builder.Requests

/-!
# Strict builders and strict devices

A strict builder asks whether an action is known before it looks it up.  A strict device refuses
the look-up.  `Workshop.delegate` takes the strictness off all builders of a workshop and puts it
on all devices.  `Program.delegate` does so with the builders that a program makes and the devices
that it holds.

`Op.Delegates x g y w` says that `y` in `w.delegate` goes as `x` goes in `w`: the same faults, the
same records, and an end that is that of `x` delegated.  It is an equality of two runs, so it is
closed under sequences, and also under what goes on after a fault.

It holds of a program as long as the program stays with the builders that are being built, which
are strict, since a splice lends the strictness of the taker.  `Program.departures` are the places
of a run where it does not.
-/

namespace Cockpit

open Op

/-! ## Devices and airframes -/

/-- The device, strict. -/
def Device.tighten (d : Device) : Device := { d with strict := true }

/-- The airframe with all devices strict. -/
def Airframe.tighten (a : Airframe) : Airframe := { a with devices := a.devices.map Device.tighten }

theorem Airframe.find?_tighten (a : Airframe) (name : Value) :
    a.tighten.find? name = (a.find? name).map (Option.map Device.tighten) := by
  rw [find?, find?]
  split
  · rw [tighten, List.find?_map]
    rfl
  · rfl

theorem Airframe.device_tighten (a : Airframe) (name : Value) :
    a.tighten.device name = (a.device name).map Device.tighten := by
  rw [device, device, find?_tighten]
  cases a.find? name with
  | error e => rfl
  | ok found => cases found <;> rfl

/-- The source, with the device strict where it is held. -/
def DeviceSource.tighten {α : Type} : DeviceSource α → DeviceSource α
  | .named n => .named n
  | .held d => .held d.tighten

theorem DeviceSource.mapM_tighten {α β : Type} (f : α → Except Fault β) (source : DeviceSource α) :
    source.tighten.mapM f = tighten <$> source.mapM f := by
  cases source with
  | named n => simp only [tighten, mapM, map_bind, map_pure]
  | held d => rfl

/-! ## Programs -/

/-- The call with a strict device, where it carries one. -/
def Call.tighten {α : Type} : Call α → Call α
  | .action d n w => .action d.tighten n w
  | .customAction d n x y t w => .customAction d.tighten n x y t w
  | .actions d ns ps w => .actions d.tighten ns ps w
  | .repeatAction d n c w => .repeatAction d.tighten n c w
  | .typeText d v w => .typeText d.tighten v w
  | .typeCoordinate d v w => .typeCoordinate d.tighten v w
  | .typeNumber d v e s c w => .typeNumber d.tighten v e s c w
  | c => c

/-- Reading the operands of a call leaves the device that it carries alone. -/
theorem Call.resolve_tighten (context : Value) (c : Call Operand) :
    c.tighten.resolve context = tighten <$> c.resolve context := by
  cases c with
  | misuse d => cases d <;> simp only [resolve, tighten, mapM, map_bind, map_pure]
  | _ =>
      simp only [resolve, tighten, mapM, DeviceSource.mapM_tighten, map_bind, map_pure,
        bind_map_left]

mutual

/-- The step with all builders that it makes lenient and all devices that it holds strict. -/
def Step.delegate : Step → Step
  | .call c => .call c.tighten
  | .block head body => .block head (Program.delegate body)
  | .splice target context => .splice target.delegate context
  | .build context => .build context
  | .raise fault => .raise fault
  | .attempt body => .attempt (Program.delegate body)
  | .on target step => .on target.delegate step.delegate
  | .inspect target => .inspect target.delegate
termination_by structural s => s

/-- The target with the builders and devices of its program so, and lenient if it is new. -/
def Target.delegate : Target → Target
  | .named name => .named name
  | .fresh kind equipped _ fn args program =>
    .fresh kind equipped false fn args (Program.delegate program)
termination_by structural t => t

/-- The program with all builders that it makes lenient and all devices that it holds strict. -/
def Program.delegate : List Step → List Step
  | [] => []
  | s :: ss => s.delegate :: Program.delegate ss
termination_by structural ss => ss

end

/-! ## Calls -/

/-- What a call gives back where the devices are strict and the builders lenient. -/
def Reply.delegate : Reply → Reply
  | .device d => .device d.tighten
  | .view length _ text => .view length false text
  | r => r

namespace Builder

variable {b : Builder} {c : Call Value}

/-- The builder, lenient, with strict devices. -/
def delegate (b : Builder) : Builder :=
  { b with strict := false, airframe := b.airframe.map Airframe.tighten }

theorem lookUp_delegate (b : Builder) (name : Value) :
    b.delegate.lookUp name = (b.lookUp name).map Device.tighten := by
  rw [lookUp, lookUp, delegate]
  cases b.airframe with
  | none => rfl
  | some a => exact a.device_tighten name

theorem device_delegate (b : Builder) (source : DeviceSource Value) :
    b.delegate.device source.tighten = (b.device source).map Device.tighten := by
  cases source with
  | named name => exact b.lookUp_delegate name
  | held d => rfl

/-- What goes on with a device goes on with the strict one. -/
theorem liftM_tighten_bind {α : Type} {f g : Device → Op Log.Journal α}
    {r r' : Except Fault Device} (hr : r' = r.map Device.tighten) (h : ∀ d, g d.tighten = f d) :
    ((liftM r' : Op Log.Journal Device) >>= g) = liftM r >>= f := by
  rw [hr]
  cases r with
  | error e => rfl
  | ok d => exact h d

section

variable (hb : b.strict = true)
include hb

/-- The check of a strict builder and the look-up of a strict device refuse the same names with the
same faults, and then neither logs anything. -/
theorem checkName_lookup (d : Device) (name : Value) :
    ((liftM (b.checkName d name) : Op Log.Journal Unit) >>= fun _ => d.lookup name) =
      d.tighten.lookup name := by
  have hcheck : b.checkName d name = d.require [name] := if_pos hb
  have hfind : d.tighten.find? name = d.find? name := rfl
  rw [hcheck, d.require_singleton, Device.lookup, Device.lookup, hfind]
  cases d.find? name with
  | error e => rfl
  | ok found => cases found <;> rfl

/-- A press of a named action, whatever its parameters. -/
theorem press_delegate (d : Device) (name : Value) (p : Action → Except Fault Press) :
    let press (d : Device) : Op Log.Journal (Option Press) := do
      match ← d.lookup name with
      | some a => return some (← p a)
      | none => return none
    (liftM (b.delegate.checkName d.tighten name) >>= fun _ => press d.tighten) =
      liftM (b.checkName d name) >>= fun _ => press d := by
  intro press
  have hloose : b.delegate.checkName d.tighten name = .ok () := rfl
  rw [hloose, ← Op.bind_assoc _ (fun _ => d.lookup name), checkName_lookup hb]
  rfl

theorem pressNamed_delegate (d : Device) (name wait : Value) :
    b.delegate.pressNamed d.tighten name wait = b.pressNamed d name wait :=
  press_delegate hb d name fun a => d.press a wait

theorem pressAll_delegate (d : Device) (names : List Value) :
    b.delegate.pressAll d.tighten names = b.pressAll d names := by
  induction names with
  | nil => rfl
  | cons n names ih => rw [pressAll, pressAll, pressNamed_delegate hb, ih]

theorem actionCommands_delegate (d : Device) (names : List Value) (wait : Value) :
    b.delegate.actionCommands d.tighten names wait = b.actionCommands d names wait := by
  rw [actionCommands, actionCommands, pressAll_delegate hb]

/-- A call appends the same commands to a strict builder and to a lenient one with strict
devices. -/
theorem commandsOf_delegate (c : Call Value) :
    b.delegate.commandsOf c.tighten = b.commandsOf c := by
  have hactions := actionCommands_delegate hb
  cases c with
  | action d n w =>
      refine liftM_tighten_bind (b.device_delegate d) fun d => ?_
      rw [pressNamed_delegate hb]
  | customAction d n x y t w =>
      refine liftM_tighten_bind (b.device_delegate d) fun d => ?_
      have hpress := press_delegate hb d n fun a => d.press (a.adapt t x y) w
      rw [← Op.bind_assoc, ← Op.bind_assoc (liftM (b.checkName d n))]
      exact congrArg (· >>= _) hpress
  | actions d ns ps w =>
      refine liftM_tighten_bind (b.device_delegate d) fun d => ?_
      simp only [hactions]
  | repeatAction d n c w =>
      refine liftM_tighten_bind (b.device_delegate d) fun d => ?_
      simp only [hactions]
  | typeText d v w =>
      refine liftM_tighten_bind (b.device_delegate d) fun d => ?_
      simp only [hactions]
  | typeCoordinate d v w =>
      refine liftM_tighten_bind (b.device_delegate d) fun d => ?_
      simp only [hactions]
  | typeNumber d v e s c w =>
      refine liftM_tighten_bind (b.device_delegate d) fun d => ?_
      simp only [hactions]
  | _ => rfl

/-- A call that appends its commands and gives back what does not depend on the builder. -/
theorem apply_delegate_append {reply : Reply} (hreply : reply.delegate = reply)
    (happly : ∀ b : Builder,
      b.apply c = (b.commandsOf c >>= fun cs => pure (b.append cs, reply)))
    (htight : ∀ b : Builder,
      b.apply c.tighten = (b.commandsOf c.tighten >>= fun cs => pure (b.append cs, reply))) :
    b.delegate.apply c.tighten = (fun p => (p.1.delegate, p.2.delegate)) <$> b.apply c := by
  rw [happly, htight, commandsOf_delegate hb, map_bind]
  simp only [map_pure, hreply]
  rfl

/-- A call that leaves the strictness alone does the same to a strict builder and to a lenient one
with strict devices. -/
theorem apply_delegate (hc : ∀ v, c ≠ .setStrict v) :
    b.delegate.apply c.tighten = (fun p => (p.1.delegate, p.2.delegate)) <$> b.apply c := by
  cases c with
  | clear => rfl
  | truncate n =>
      show b.delegate.apply (.truncate n) = _
      rw [apply, apply, map_bind]
      rfl
  | setStrict v => exact absurd rfl (hc v)
  | device n =>
      show b.delegate.apply (.device n) = _
      rw [apply, apply, map_bind]
      exact liftM_tighten_bind (b.lookUp_delegate n) fun _ => rfl
  | commands => rfl
  | misuse d =>
      cases d with
      | none => rfl
      | some d =>
          show b.delegate.apply (.misuse (some d)) = _
          rw [apply, apply, map_bind]
          exact liftM_tighten_bind (b.lookUp_delegate d) fun _ => rfl
  | typeNumber d v e s c w => exact apply_delegate_append hb rfl (fun _ => rfl) fun _ => rfl
  | _ => exact apply_delegate_append hb rfl (fun _ => rfl) fun _ => rfl

end

theorem apply_yields_strict (hb : b.strict = true) (hc : ∀ v, c ≠ .setStrict v) :
    (b.apply c).Yields fun p => p.1.strict = true := by
  intro j p j' h
  rcases apply_cases h with ⟨-, h⟩ | ⟨n, s, -, -, h⟩ | ⟨v, rfl, -⟩ | ⟨cs, -, h⟩
  · rw [h]
    exact hb
  · rw [h]
    exact hb
  · exact absurd rfl (hc v)
  · rw [h]
    exact hb

end Builder

/-! ## Workshops -/

/-- The bench with a lenient builder that has strict devices and makes lenient builders. -/
def Bench.delegate (n : Bench) : Bench := ⟨n.builder.delegate, Program.delegate n.program⟩

namespace Workshop

variable {w t u : Workshop} {id other : BuilderId}

/-- The workshop, where all builders are lenient and all devices are strict. -/
def delegate (w : Workshop) : Workshop :=
  { w with
    airframe := w.airframe.map Airframe.tighten
    benches := w.benches.map Bench.delegate }

@[simp] theorem bench_delegate (w : Workshop) (id : BuilderId) :
    w.delegate.bench id = (w.bench id).delegate := by
  rw [bench, bench, delegate, List.getElem?_map]
  cases w.benches[id]? <;> rfl

@[simp] theorem builder_delegate (w : Workshop) (id : BuilderId) :
    w.delegate.builder id = (w.builder id).delegate := by
  rw [builder, bench_delegate]
  rfl

theorem setBuilder_delegate (id : BuilderId) (b : Builder) (w : Workshop) :
    (w.setBuilder id b).delegate = w.delegate.setBuilder id b.delegate := by
  refine eq_of_benches (fun i => ?_) rfl rfl rfl rfl
  rw [delegate, setBuilder, setBuilder, delegate, List.getElem?_map, List.getElem?_modify,
    List.getElem?_modify, List.getElem?_map]
  cases w.benches[i]? with
  | none => rfl
  | some n =>
      by_cases hi : id = i
      · simp [hi, Bench.delegate]
      · simp [hi]

theorem changeBuilder_delegate {f g : Builder → Builder}
    (h : (f (w.builder id)).delegate = g (w.builder id).delegate) :
    (w.changeBuilder id f).delegate = w.delegate.changeBuilder id g := by
  rw [changeBuilder, setBuilder_delegate, h, changeBuilder, builder_delegate]

theorem withBench_delegate (n : Bench) (w : Workshop) :
    (w.withBench n).delegate = w.delegate.withBench n.delegate := by
  simp only [withBench, delegate, List.map_append, List.map_cons, List.map_nil]

/-- A loan of a lenient builder to a lenient one is lenient. -/
theorem lent_delegate (id other : BuilderId) (w : Workshop) :
    (w.lent id other).delegate = w.delegate.lent id other := by
  have hclear : (w.changeBuilder other Builder.clear).delegate =
      w.delegate.changeBuilder other Builder.clear := changeBuilder_delegate rfl
  rw [lent, lent, ← hclear]
  refine changeBuilder_delegate ?_
  rw [builder_delegate]
  rfl

/-! ### Strict builders that stay strict -/

/-- Whether all strict builders of a workshop are strict in another one. -/
def Firm (w t : Workshop) : Prop :=
  ∀ i, (w.builder i).strict = true → (t.builder i).strict = true

theorem Firm.refl (w : Workshop) : Firm w w := fun _ h => h

theorem Firm.trans (h : Firm w t) (h' : Firm t u) : Firm w u := fun i hi => h' i (h i hi)

theorem firm_change {f : Builder → Builder}
    (hf : (w.builder id).strict = true → (f (w.builder id)).strict = true) :
    Firm w (w.changeBuilder id f) := by
  intro i hi
  rcases builder_changeBuilder_cases id f w i with he | ⟨rfl, he⟩
  · rwa [he]
  · rw [he]
    exact hf hi

theorem firm_withBench (n : Bench) (w : Workshop) : Firm w (w.withBench n) := by
  intro i hi
  rwa [builder_withBench_of_lt n (lt_of_strict hi)]

theorem firm_lent (id other : BuilderId) (w : Workshop) : Firm w (w.lent id other) := by
  have hclear : Firm w (w.changeBuilder other Builder.clear) := firm_change fun hb => hb
  refine hclear.trans (firm_change fun hb => ?_)
  show (_ || _) = true
  rw [hb, Bool.true_or]

end Workshop

/-! ## Operations -/

namespace Op

open Workshop

variable {α α' β β' : Type} {x : Op Workshop α} {y : Op Workshop α'} {g : α → α'}
  {w : Workshop} {id : BuilderId}

/-- Whether an operation in the workshop with lenient builders and strict devices goes as another
one in the workshop itself, which takes no builder its strictness. -/
structure Delegates (x : Op Workshop α) (g : α → α') (y : Op Workshop α') (w : Workshop) :
    Prop where
  run : y.run w.delegate = ((x.run w).1.map g, (x.run w).2.delegate)
  firm : Firm w (x.run w).2

/-- Operations that run as others do go together as those do. -/
theorem Delegates.of_run {x' : Op Workshop α} {y' : Op Workshop α'} (h : x.Delegates g y w)
    (hx : x'.run w = x.run w) (hy : y'.run w.delegate = y.run w.delegate) :
    x'.Delegates g y' w :=
  ⟨by rw [hx, hy, h.run], hx ▸ h.firm⟩

theorem delegates_pure (a : α) (w : Workshop) :
    (pure a : Op Workshop α).Delegates g (pure (g a)) w := ⟨rfl, .refl w⟩

theorem delegates_stop (e : Fault) (w : Workshop) :
    (stop e : Op Workshop α).Delegates g (stop e) w := ⟨rfl, .refl w⟩

theorem Delegates.bind {f : α → Op Workshop β} {f' : α' → Op Workshop β'} {g' : β → β'}
    (hx : x.Delegates g y w)
    (hf : ∀ a t, x.run w = (.ok a, t) → Firm w t → (f a).Delegates g' (f' (g a)) t) :
    (x >>= f).Delegates g' (y >>= f') w := by
  obtain ⟨hy, hfirm⟩ := hx
  rcases hx : x.run w with ⟨e | a, t⟩
  · rw [hx] at hy hfirm
    refine ⟨?_, ?_⟩
    · rw [run_bind_error hx, run_bind_error hy]
      rfl
    · rw [run_bind_error hx]
      exact hfirm
  · rw [hx] at hy hfirm
    obtain ⟨hy', hfirm'⟩ := hf a t hx hfirm
    refine ⟨?_, ?_⟩
    · rw [run_bind_ok hx, run_bind_ok hy, hy']
    · rw [run_bind_ok hx]
      exact hfirm.trans hfirm'

/-- Giving nothing back. -/
theorem Delegates.then_nothing {x y : Op Workshop Unit} (hx : x.Delegates (fun u => u) y w) :
    (x >>= fun _ => pure Reply.nothing).Delegates Reply.delegate
      (y >>= fun _ => pure Reply.nothing) w :=
  hx.bind fun _ t _ _ => delegates_pure _ t

/-- Going on with a result that is there. -/
theorem delegates_liftM_bind {r : Except Fault α} {f : α → Op Workshop β} {f' : α → Op Workshop β'}
    {g' : β → β'} (hf : ∀ a, r = .ok a → (f a).Delegates g' (f' a) w) :
    ((liftM r : Op Workshop α) >>= f).Delegates g' (liftM r >>= f') w := by
  cases r with
  | error e => exact delegates_stop e w
  | ok a => exact hf a rfl

/-- Going on with what is read off a builder. -/
theorem delegates_read_bind {h : Builder → α} {f : α → Op Workshop β} {f' : α → Op Workshop β'}
    {g' : β → β'} (hf : (f (h (w.builder id))).Delegates g' (f' (h (w.builder id).delegate)) w) :
    (read id h >>= f).Delegates g' (read id h >>= f') w := by
  rw [← builder_delegate] at hf
  exact ⟨hf.run, hf.firm⟩

theorem delegates_ite {c : Prop} [Decidable c] {x' : Op Workshop α} {y' : Op Workshop α'}
    (hx : x.Delegates g y w) (hx' : x'.Delegates g y' w) :
    (if c then x else x').Delegates g (if c then y else y') w := by
  split
  · exact hx
  · exact hx'

theorem delegates_change {f f' : Builder → Builder}
    (hf : (f (w.builder id)).delegate = f' (w.builder id).delegate)
    (hs : (w.builder id).strict = true → (f (w.builder id)).strict = true) :
    (change id f).Delegates (fun u => u) (change id f') w :=
  ⟨congrArg (Prod.mk _) (changeBuilder_delegate hf).symm, firm_change hs⟩

/-- An attempt hands over the same fault. -/
theorem Delegates.attempt (hx : x.Delegates g y w) :
    x.attempt.Delegates (Except.map g) y.attempt w := by
  refine ⟨?_, hx.firm⟩
  rw [run_attempt, run_attempt, hx.run]
  rfl

section

variable {f : Builder → Builder} (hf : ∀ b, (f b).delegate = f b.delegate)
  (hs : ∀ b, b.strict = true → (f b).strict = true)
include hf hs

theorem Delegates.ensure (hx : x.Delegates g y w) (id : BuilderId) :
    (x.ensure (changeBuilder id f)).Delegates g (y.ensure (changeBuilder id f)) w := by
  refine ⟨?_, hx.firm.trans (firm_change (hs _))⟩
  rw [run_ensure, run_ensure, hx.run, changeBuilder_delegate (hf _)]

theorem Delegates.onFault (hx : x.Delegates g y w) (id : BuilderId) :
    (x.onFault (changeBuilder id f)).Delegates g (y.onFault (changeBuilder id f)) w := by
  obtain ⟨hy, hfirm⟩ := hx
  rcases hx : x.run w with ⟨e | a, t⟩
  · rw [hx] at hy hfirm
    refine ⟨?_, ?_⟩
    · rw [run_onFault, run_onFault, hx, hy]
      exact congrArg (Prod.mk _) (changeBuilder_delegate (hf _)).symm
    · rw [run_onFault, hx]
      exact hfirm.trans (firm_change (hs _))
  · rw [hx] at hy hfirm
    refine ⟨?_, ?_⟩
    · rw [run_onFault, run_onFault, hx, hy]
      rfl
    · rw [run_onFault, hx]
      exact hfirm

end

end Op

namespace Workshop

variable {w : Workshop} {id other : BuilderId} {context : Value}

/-! ### Calls, targets, blocks and splices -/

theorem logged_delegates {α : Type} (x : Op Log.Journal α) (w : Workshop) :
    (logged x).Delegates (fun a => a) (logged x) w := by
  refine ⟨?_, fun _ h => h⟩
  rw [run_logged, run_logged]
  have hjournal : w.delegate.journal = w.journal := rfl
  rw [hjournal]
  cases (x.run w.journal).1 <;> rfl

theorem call_delegates {c : Call Value} (hid : (w.builder id).strict = true)
    (hc : ∀ v, c ≠ .setStrict v) : (call id c).Delegates Reply.delegate (call id c.tighten) w := by
  have hloose := Builder.apply_delegate hid hc
  have hjournal : w.delegate.journal = w.journal := rfl
  refine ⟨?_, ?_⟩
  · rw [run_call, run_call, builder_delegate, hloose, hjournal, ← bind_pure_comp, run_bind]
    rcases ((w.builder id).apply c).run w.journal with ⟨e | ⟨b, r⟩, j⟩
    · rfl
    · exact congrArg (Prod.mk (Except.ok r.delegate))
        (setBuilder_delegate id b { w with journal := j }).symm
  · rw [run_call]
    rcases hr : ((w.builder id).apply c).run w.journal with ⟨e | ⟨b, r⟩, j⟩
    · exact .refl w
    · have hb : b.strict = true := Builder.apply_yields_strict hid hc _ _ _ hr
      exact firm_change (f := fun _ => b) fun _ => hb

theorem find_delegates (target : Target) (w : Workshop) :
    (find target).Delegates (fun i => i) (find target.delegate) w := by
  cases target with
  | named n =>
      rw [Target.delegate, find]
      have hnames : w.delegate.names = w.names := rfl
      refine ⟨?_, ?_⟩
      · rw [run_state_bind, run_state_bind, hnames]
        cases w.names.lookup n <;> rfl
      · rw [run_state_bind]
        cases w.names.lookup n with
        | none => exact .refl w
        | some i => exact .refl w
  | fresh kind equipped strict fn args program =>
      rw [Target.delegate]
      refine ⟨?_, ?_⟩
      · rw [run_fresh, run_fresh]
        cases (if kind.asks then args.itemsIfSet else .ok [] : Except Fault (List Value)) with
        | error e => rfl
        | ok xs =>
            have hbench : (freshBench kind equipped strict fn xs program w).delegate =
                freshBench kind equipped false fn xs (Program.delegate program) w.delegate := by
              cases equipped <;> rfl
            have hlength : w.delegate.benches.length = w.benches.length := List.length_map _
            dsimp only
            rw [withBench_delegate, hbench, hlength]
            rfl
      · rw [run_fresh]
        cases (if kind.asks then args.itemsIfSet else .ok [] : Except Fault (List Value)) with
        | error e => exact .refl w
        | ok xs => exact firm_withBench _ w

theorem openBlock_delegates (id : BuilderId) (condition : Value) (opener : Command)
    (w : Workshop) :
    (openBlock id condition opener).Delegates (fun n => n) (openBlock id condition opener) w := by
  have hconditions : (w.delegate.builder id).openConditions = (w.builder id).openConditions := by
    rw [builder_delegate]
    rfl
  have hstream : (w.delegate.builder id).stream = (w.builder id).stream := by
    rw [builder_delegate]
    rfl
  have hopened : (w.opened id condition opener).delegate = w.delegate.opened id condition opener :=
    changeBuilder_delegate rfl
  refine ⟨?_, ?_⟩
  · rw [run_openBlock, run_openBlock, hconditions, hstream, ← hopened]
    split <;> rfl
  · rw [run_openBlock]
    split
    · exact .refl w
    · exact firm_change fun hb => hb

/-- A block goes the same way if its body does, where the block is open. -/
theorem block_delegates {h : BlockHead Value} {body body' : Op Workshop Unit}
    (hbody : ∀ opener, h.opener = .ok opener →
      (w.builder id).openConditions.any (·.same h.condition) = false →
        body.Delegates (fun u => u) body' (w.opened id h.condition opener)) :
    (block id h body).Delegates (fun u => u) (block id h body') w := by
  refine delegates_liftM_bind fun opener ho => ?_
  refine (openBlock_delegates id h.condition opener w).bind fun start t hopen _ => ?_
  have hinside : body.Delegates (fun u => u) body' t := by
    rw [run_openBlock] at hopen
    cases hany : (w.builder id).openConditions.any (·.same h.condition) with
    | true =>
        rw [hany] at hopen
        cases hopen
    | false =>
        rw [hany] at hopen
        cases hopen
        exact hbody opener ho hany
  have hcut := hinside.onFault (f := fun b => { b with stream := b.stream.take start })
    (fun _ => rfl) (fun _ hb => hb) id
  have hdrop := hcut.ensure (f := fun b => { b with openConditions := b.openConditions.dropLast })
    (fun _ => rfl) (fun _ hb => hb) id
  exact hdrop.bind fun _ t _ _ => delegates_change rfl fun hb => hb

theorem takeOver_delegates (id other : BuilderId) (w : Workshop) :
    (takeOver id other).Delegates (fun u => u) (takeOver id other) w := by
  refine delegates_read_bind (delegates_read_bind ?_)
  refine delegates_ite (delegates_stop _ w) ?_
  let append (b : Builder) := b.append (w.builder other).stream
  have hchange : (change id append).Delegates (fun u => u) (change id append) w :=
    delegates_change rfl fun hb => hb
  exact hchange.bind fun _ t _ _ => delegates_read_bind (logged_delegates _ t)

/-- A splice goes the same way if the other builder builds the same way on loan. -/
theorem splice_delegates {build : Building}
    (hbuild : (build other context).Delegates (fun u => u) (build other context)
      (w.lent id other)) :
    (splice build id other context).Delegates (fun u => u) (splice build id other context) w := by
  let before := (w.changeBuilder other Builder.clear).builder other
  have hbefore : (w.delegate.changeBuilder other Builder.clear).builder other =
      before.delegate := by
    rw [← changeBuilder_delegate (w := w) (f := Builder.clear) rfl, builder_delegate]
  have hback (t : Workshop) : (t.changeBuilder other (giveBack before)).delegate =
      t.delegate.changeBuilder other (giveBack before.delegate) := changeBuilder_delegate rfl
  -- Giving back takes away only what the loan gave.
  have hfirm (t : Workshop) (ht : Firm (w.lent id other) t) :
      Firm w (t.changeBuilder other (giveBack before)) := by
    intro i hi
    have hit := ht i (firm_lent id other w i hi)
    rcases builder_changeBuilder_cases other (giveBack before) t i with he | ⟨rfl, he⟩
    · rwa [he]
    · rw [he, giveBack]
      show before.strict = true
      rw [show before = _ from builder_changeBuilder_self (lt_of_strict hi) _]
      exact hi
  obtain ⟨hrun, hkept⟩ := hbuild
  rw [lent_delegate] at hrun
  rcases hr : (build other context).run (w.lent id other) with ⟨e | u, t⟩
  · rw [hr] at hrun hkept
    refine ⟨?_, ?_⟩
    · rw [run_splice, run_splice, hr, hrun, hbefore]
      exact congrArg (Prod.mk _) (hback t).symm
    · rw [run_splice, hr]
      exact hfirm t hkept
  · rw [hr] at hrun hkept
    obtain ⟨htaken, htfirm⟩ := takeOver_delegates id other (t.changeBuilder other (giveBack before))
    refine ⟨?_, ?_⟩
    · rw [run_splice, run_splice, hr, hrun, hbefore]
      rw [hback] at htaken
      exact htaken
    · rw [run_splice, hr]
      exact (hfirm t hkept).trans htfirm

/-- An attempt notes the same fault. -/
theorem note_delegates (r : Except Fault Unit) (w : Workshop) :
    (note r).Delegates (fun u => u) (note (r.map fun u => u)) w := by
  refine ⟨?_, fun _ h => h⟩
  cases r <;> rfl

/-- A query is added alike to a strict builder and to a lenient one. -/
theorem addOwnQuery_delegates (id : BuilderId) (w : Workshop) :
    (addOwnQuery id).Delegates (fun u => u) (addOwnQuery id) w := by
  refine delegates_read_bind ?_
  rw [Builder.addOwnQuery, Builder.addOwnQuery]
  have hquery : (w.builder id).delegate.queryCommand = (w.builder id).queryCommand := rfl
  have hfn : (w.builder id).delegate.fn = (w.builder id).fn := rfl
  have hargs : (w.builder id).delegate.args = (w.builder id).args := rfl
  rw [hquery, hfn, hargs]
  split
  · exact delegates_stop _ w
  · cases (w.builder id).queryCommand (w.builder id).fn (.list (w.builder id).args) with
    | error e => exact delegates_stop e w
    | ok q => exact delegates_change rfl fun hb => hb

end Workshop

/-! ## Departures -/

/-- What takes a run away from strict builders. -/
inductive Departure where
  /-- The strictness of a builder is set. -/
  | sets (id : BuilderId)
  /-- A step runs on a builder that is not being built. -/
  | leaves (id : BuilderId)

/-- The departures while a builder builds in a context and a workshop, inside other builders that
are being built. -/
abbrev Itinerary := List BuilderId → BuilderId → Value → Workshop → List Departure

/-- The departures of a call on a builder. -/
def Call.departures (id : BuilderId) : Call Value → List Departure
  | .setStrict _ => [.sets id]
  | _ => []

mutual

/-- The departures of a step on a builder, inside the builders of a chain. -/
def Step.departures (build : Building) (inner : Itinerary) (chain : List BuilderId)
    (id : BuilderId) (context : Value) : Step → Workshop → List Departure
  | .call c, w =>
    (liftM (c.resolve context) : Op Workshop _).follow w fun c _ => c.departures id
  | .block head body, w =>
    (Step.openCondition id context head).follow w fun _ w =>
      Program.departures build inner chain id context body w
  | .splice target c, w =>
    (Workshop.find target).follow w fun other w =>
      (liftM (c.resolve context) : Op Workshop _).follow w fun context w =>
        inner chain other context (w.lent id other)
  | .build c, w =>
    (liftM (c.resolve context) : Op Workshop _).follow w fun context w => inner chain id context w
  | .raise _, _ => []
  | .attempt body, w => Program.departures build inner chain id context body w
  | .on target step, w =>
    (Workshop.find target).follow w fun other w =>
      if other ∈ chain then Step.departures build inner chain other context step w
      else [.leaves other]
  | .inspect _, _ => []
termination_by structural s => s

/-- The departures of steps in order. -/
def Program.departures (build : Building) (inner : Itinerary) (chain : List BuilderId)
    (id : BuilderId) (context : Value) : List Step → Workshop → List Departure
  | [], _ => []
  | s :: ss, w =>
    Step.departures build inner chain id context s w ++
      (Step.run build id context s).follow w fun _ w =>
        Program.departures build inner chain id context ss w
termination_by structural ss => ss

end

/-- The departures while a builder builds, where builders may build inside one another to a
depth. -/
def Builder.departures : (depth : Nat) → Itinerary
  | 0, _, _, _, _ => []
  | depth + 1, chain, id, context, w =>
    match (w.builder id).kind with
    | .script | .scriptQuery =>
      Program.departures (Builder.build depth) (Builder.departures depth) (id :: chain) id context
        (w.bench id).program w
    | _ => []

/-! ## Programs and builds -/

/-- Whether all builders of a chain are strict. -/
def Workshop.Stern (chain : List BuilderId) (w : Workshop) : Prop :=
  ∀ i ∈ chain, (w.builder i).strict = true

theorem Workshop.Firm.stern {chain : List BuilderId} {w t : Workshop} (h : Firm w t)
    (hw : w.Stern chain) : t.Stern chain := fun i hi => h i (hw i hi)

/-- Whether building a strict builder goes alike where lenient builders have strict devices, unless
there are departures. -/
def Building.Delegating (build : Building) (inner : Itinerary) : Prop :=
  ∀ (chain : List BuilderId) (id : BuilderId) (context : Value) (w : Workshop), w.Stern chain →
    (id < w.benches.length → (w.builder id).strict = true) → inner chain id context w = [] →
      (build id context).Delegates (fun u => u) (build id context) w

variable {build : Building} {inner : Itinerary}

mutual

/-- A step on a strict builder goes alike on a lenient one with strict devices, unless there are
departures. -/
theorem Step.run_delegates (hb : build.Delegating inner) :
    ∀ (s : Step) {chain : List BuilderId} {id : BuilderId} {context : Value} {w : Workshop},
      w.Stern chain → id ∈ chain → s.departures build inner chain id context w = [] →
        (s.run build id context).Delegates Reply.delegate (s.delegate.run build id context) w
  | .call c, chain, id, context, w => by
      intro hw hid hs
      rw [Step.departures] at hs
      rw [Step.delegate, Step.run, Step.run, Call.resolve_tighten]
      cases hc : c.resolve context with
      | error e => exact delegates_stop e w
      | ok c' =>
          rw [hc] at hs
          refine Workshop.call_delegates (hw id hid) fun v hv => ?_
          rw [hv] at hs
          cases hs
  | .block head body, chain, id, context, w => by
      intro hw hid hs
      rw [Step.departures] at hs
      rw [Step.delegate, Step.run, Step.run]
      refine delegates_liftM_bind fun h hh => Delegates.then_nothing ?_
      refine Workshop.block_delegates fun opener ho hn => ?_
      rw [follow_ok (Step.run_openCondition hh ho hn)] at hs
      have hopened : Workshop.Firm w (w.opened id h.condition opener) :=
        Workshop.firm_change fun hb => hb
      exact Program.run_delegates hb body (hopened.stern hw) hid hs
  | .splice target c, chain, id, context, w => by
      intro hw hid hs
      rw [Step.departures] at hs
      rw [Step.delegate, Step.run, Step.run]
      refine (Workshop.find_delegates target w).bind fun other t hfind hkept => ?_
      rw [follow_ok hfind] at hs
      refine delegates_liftM_bind fun context' hc => Delegates.then_nothing ?_
      rw [hc] at hs
      have hstrict : (t.builder id).strict = true := hkept id (hw id hid)
      have hlent : (t.lent id other).Stern chain :=
        (Workshop.firm_lent id other t).stern (hkept.stern hw)
      exact Workshop.splice_delegates
        (hb chain other context' _ hlent (Workshop.strict_lent hstrict) hs)
  | .build c, chain, id, context, w => by
      intro hw hid hs
      rw [Step.departures] at hs
      rw [Step.delegate, Step.run]
      refine delegates_liftM_bind fun context' hc => Delegates.then_nothing ?_
      rw [hc] at hs
      exact hb chain id context' w hw (fun _ => hw id hid) hs
  | .raise f, chain, id, context, w => by
      intro _ _ _
      rw [Step.delegate, Step.run]
      exact delegates_stop f w
  | .attempt body, chain, id, context, w => by
      intro hw hid hs
      rw [Step.departures] at hs
      rw [Step.delegate, Step.run, Step.run]
      refine (Program.run_delegates hb body hw hid hs).attempt.bind fun r t _ _ => ?_
      exact (Workshop.note_delegates r t).then_nothing
  | .on target step, chain, id, context, w => by
      intro hw hid hs
      rw [Step.departures] at hs
      rw [Step.delegate, Step.run, Step.run]
      refine (Workshop.find_delegates target w).bind fun other t hfind hkept => ?_
      rw [follow_ok hfind] at hs
      split at hs
      · rename_i hother
        exact Step.run_delegates hb step (hkept.stern hw) hother hs
      · cases hs
  | .inspect target, chain, id, context, w => by
      intro _ _ _
      rw [Step.delegate, Step.run, Step.run]
      refine (Workshop.find_delegates target w).bind fun other t _ _ => ?_
      exact delegates_read_bind (delegates_pure _ t)
termination_by structural s => s

/-- So do steps in order. -/
theorem Program.run_delegates (hb : build.Delegating inner) :
    ∀ (ss : List Step) {chain : List BuilderId} {id : BuilderId} {context : Value} {w : Workshop},
      w.Stern chain → id ∈ chain → Program.departures build inner chain id context ss w = [] →
        (Program.run build id context ss).Delegates (fun u => u)
          (Program.run build id context (Program.delegate ss)) w
  | [], chain, id, context, w => by
      intro _ _ _
      rw [Program.delegate, Program.run]
      exact delegates_pure () w
  | s :: ss, chain, id, context, w => by
      intro hw hid hs
      rw [Program.departures] at hs
      obtain ⟨hs, hss⟩ := List.append_eq_nil_iff.mp hs
      rw [Program.delegate, Program.run, Program.run]
      refine (Step.run_delegates hb s hw hid hs).bind fun _ t hrun hkept => ?_
      rw [follow_ok hrun] at hss
      exact Program.run_delegates hb ss (hkept.stern hw) hid hss
termination_by structural ss => ss

end

/-- So does building, to whatever depth builders build inside one another. -/
theorem Builder.build_delegates (depth : Nat) :
    (Builder.build depth).Delegating (Builder.departures depth) := by
  induction depth with
  | zero => exact fun _ _ _ w _ _ _ => delegates_stop _ w
  | succ depth ih =>
      intro chain id context w hw hid hs
      have hkind : (w.delegate.builder id).kind = (w.builder id).kind := by
        rw [Workshop.builder_delegate]
        rfl
      have hprogram : (w.delegate.bench id).program = Program.delegate (w.bench id).program := by
        rw [Workshop.bench_delegate]
        rfl
      -- A place without a builder has nothing to build.
      have hstern (hk : (w.builder id).kind ≠ .plain) : w.Stern (id :: chain) := by
        refine List.forall_mem_cons.mpr ⟨hid (Nat.lt_of_not_le fun hle => hk ?_), hw⟩
        rw [Workshop.builder_of_length_le hle]
      have hruns (hk : (w.builder id).kind ≠ .plain) (hs : Program.departures (Builder.build depth)
          (Builder.departures depth) (id :: chain) id context (w.bench id).program w = []) :
          (Program.run (Builder.build depth) id context (w.bench id).program).Delegates
            (fun u => u) (Program.run (Builder.build depth) id context
              (Program.delegate (w.bench id).program)) w :=
        Program.run_delegates ih _ (hstern hk) List.mem_cons_self hs
      rw [Builder.departures] at hs
      cases hk : (w.builder id).kind with
      | plain =>
          refine (delegates_stop (.noBuild BuilderKind.plain.name) w).of_run ?_ ?_
          · rw [run_build, hk]
            rfl
          · rw [run_build, hkind, hk]
            rfl
      | setup =>
          have hsetup : (Workshop.change id fun b => b.append b.setupCommands).Delegates
              (fun u => u) (Workshop.change id fun b => b.append b.setupCommands) w :=
            delegates_change rfl fun hb => hb
          refine hsetup.of_run ?_ ?_
          · rw [run_build, hk]
            rfl
          · rw [run_build, hkind, hk]
            rfl
      | teardown =>
          have hteardown : (Workshop.change id (·.append teardownCommands)).Delegates
              (fun u => u) (Workshop.change id (·.append teardownCommands)) w :=
            delegates_change rfl fun hb => hb
          refine hteardown.of_run ?_ ?_
          · rw [run_build, hk]
            rfl
          · rw [run_build, hkind, hk]
            rfl
      | query =>
          refine (Workshop.addOwnQuery_delegates id w).of_run ?_ ?_
          · rw [run_build, hk]
          · rw [run_build, hkind, hk]
      | script =>
          rw [hk] at hs
          refine (hruns (hk ▸ nofun) hs).of_run ?_ ?_
          · rw [run_build, hk]
          · rw [run_build, hkind, hk, hprogram]
      | scriptQuery =>
          rw [hk] at hs
          have hquery := (hruns (hk ▸ nofun) hs).bind fun _ t _ _ =>
            Workshop.addOwnQuery_delegates id t
          refine hquery.of_run ?_ ?_
          · rw [run_build, hk]
          · rw [run_build, hkind, hk, hprogram]

/-- Strictness of the builder and strictness of the devices come to the same.  A run of a program on
a strict builder that departs nowhere, and the run of the program with lenient builders and strict
devices where all builders are lenient and all devices strict, end with the same fault or with none,
note the same faults of the attempts, log the same records, and leave the same commands in all
builders.  The second one ends in the workshop in which the first one ends, delegated. -/
theorem Program.strictness_delegates (depth : Nat) {w : Workshop} {id : BuilderId} (context : Value)
    {steps : Program} (hid : (w.builder id).strict = true)
    (hstays : Program.departures (Builder.build depth) (Builder.departures depth) [id] id context
      steps w = []) :
    let hard := (Program.run (Builder.build depth) id context steps).run w
    let tight :=
      (Program.run (Builder.build depth) id context (Program.delegate steps)).run w.delegate
    tight.1 = hard.1 ∧ tight.2.caught = hard.2.caught ∧ tight.2.journal = hard.2.journal ∧
      (∀ i, (tight.2.builder i).stream = (hard.2.builder i).stream) ∧
      tight.2 = hard.2.delegate := by
  have hstern : w.Stern [id] := List.forall_mem_singleton.mpr hid
  obtain ⟨hrun, -⟩ := Program.run_delegates (Builder.build_delegates depth) steps hstern
    List.mem_cons_self hstays
  intro hard tight
  have htight : tight = (hard.1.map fun u => u, hard.2.delegate) := hrun
  rw [htight]
  refine ⟨?_, rfl, rfl, fun i => ?_, rfl⟩
  · cases hard.1 <;> rfl
  · rw [Workshop.builder_delegate]
    rfl

namespace Workshop

/-- A lenient device with two keys. -/
def pad : Device :=
  let keys := (["1", "2"].map fun n => { name := .text n, code := .int 3001 } : List Action)
  { id := .int 25, name := .text "UFC", actions := keys }

/-- A strict builder of an airframe whose only device is the lenient one. -/
def panel : Workshop :=
  let airframe : Airframe := { name := .text "F-16", devices := [pad] }
  { airframe := some airframe
    benches := [⟨{ airframe := some airframe, strict := true }, []⟩]
    names := [("panel", 0)] }

/-- Tries to splice, inside a block, a new builder that types, lets the first builder wait and then
asks for an action that is missing on the device that it holds, and types afterwards. -/
def trying : Program :=
  let ufc : DeviceSource Operand := .named (.value (.text "UFC"))
  let spliced : Program :=
    [.call (.typeText ufc (.value (.text "12")) (.value (.int 0))),
      .on (.named "panel") (.call (.wait (.value (.int 100)))),
      .call (.action (.held pad) (.value (.text "ENT")) (.value (.int 0)))]
  [.attempt
    [.block ⟨.onceIf, .value (.text "ready"), .value (.bool true), .value .null, .value .null⟩
      [.splice (.fresh .script true false .null .null spliced) (.value .null)]],
    .call (.typeText ufc (.value (.text "21")) (.value (.int 0)))]

theorem strictness_delegates_trying :
    let hard := (Program.run (Builder.build 2) 0 .null trying).run panel
    let tight :=
      (Program.run (Builder.build 2) 0 .null (Program.delegate trying)).run panel.delegate
    (panel.builder 0).strict = true ∧
      Program.departures (Builder.build 2) (Builder.departures 2) [0] 0 .null trying panel = [] ∧
      tight.2.caught = [some (.unknownAction (.text "UFC") ["ENT"])] ∧
      (tight.2.builder 0).stream = (hard.2.builder 0).stream ∧
      (hard.2.builder 0).stream.length = 2 := by
  have hstays : Program.departures (Builder.build 2) (Builder.departures 2) [0] 0 .null trying
      panel = [] := rfl
  have hstrict : (panel.builder 0).strict = true := rfl
  obtain ⟨-, hcaught, -, hstreams, -⟩ := Program.strictness_delegates 2 .null hstrict hstays
  exact ⟨hstrict, hstays, hcaught.trans rfl, hstreams 0, rfl⟩

end Workshop

end Cockpit
