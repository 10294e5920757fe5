import Cockpit.Proofs.Builder.Spares

/-!
# What operations tell the log

No operation on builders looks at the journal.  It tells the journal some records, and the
journal keeps those that are not below its threshold.

`Op.Tells x w rs r t` says that `x` ends in the result `r` and the workshop `t` and tells the
records `rs`, whatever the journal.  The lemmas follow how operations are put together, and
`Program.run_tells` says that every run of a program tells some records.  `Op.told` are these
records.
-/

namespace Cockpit

/-! ## Journals -/

namespace Log.Journal

/-- The journal after some records. -/
def addAll (j : Journal) (rs : List Record) : Journal := rs.foldl add j

theorem addAll_append (j : Journal) (rs ss : List Record) :
    j.addAll (rs ++ ss) = (j.addAll rs).addAll ss := List.foldl_append

/-- A journal that keeps every level has all records behind its own. -/
theorem addAll_of_debug {j : Journal} (h : j.threshold = .debug) (rs : List Record) :
    j.addAll rs = { j with records := j.records ++ rs } := by
  induction rs generalizing j with
  | nil => simp [addAll]
  | cons r rs ih =>
      have hkeeps : j.keeps r.level = true := by
        rw [keeps, h]
        cases r.level <;> decide
      have hadd : j.add r = { j with records := j.records ++ [r] } := by rw [add, if_pos hkeeps]
      show (j.add r).addAll rs = _
      rw [hadd, @ih { j with records := j.records ++ [r] } h]
      simp only [List.append_assoc, List.singleton_append]

end Log.Journal

namespace Op

variable {α β : Type} {rs ss : List Log.Record} {a : α} {e : Fault}

/-! ## Operations that only log -/

/-- Whether an operation ends in a result and tells some records, whatever the journal. -/
def Logs (x : Op Log.Journal α) (rs : List Log.Record) (r : Except Fault α) : Prop :=
  ∀ j, x.run j = (r, j.addAll rs)

theorem logs_pure (a : α) : (pure a : Op Log.Journal α).Logs [] (.ok a) := fun _ => rfl

theorem logs_stop (e : Fault) : (stop e : Op Log.Journal α).Logs [] (.error e) := fun _ => rfl

theorem logs_liftM (r : Except Fault α) : (liftM r : Op Log.Journal α).Logs [] r := fun _ => rfl

theorem logs_say (source : Log.Source) (level : Log.Level) (text : String) :
    (Log.say source level text).Logs [⟨source, level, text⟩] (.ok ()) := fun _ => rfl

section

variable {x : Op Log.Journal α} {f : α → Op Log.Journal β} {r : Except Fault β}

theorem Logs.bind (hx : x.Logs rs (.ok a)) (hf : (f a).Logs ss r) :
    (x >>= f).Logs (rs ++ ss) r := by
  intro j
  rw [run_bind_ok (hx j), hf, Log.Journal.addAll_append]

theorem Logs.bind_error (hx : x.Logs rs (.error e)) : (x >>= f).Logs rs (.error e) := fun j =>
  run_bind_error (hx j)

theorem Logs.map (hx : x.Logs rs (.ok a)) (g : α → β) :
    (x >>= fun a => pure (g a)).Logs rs (.ok (g a)) := by
  rw [← List.append_nil rs]
  exact hx.bind (logs_pure (g a))

/-- A result that is there, in another form. -/
theorem logs_map (r : Except Fault α) (g : α → β) :
    ((liftM r : Op Log.Journal α) >>= fun a => pure (g a)).Logs [] (r.map g) := by
  cases r <;> exact fun _ => rfl

/-- Whether an operation does nothing with the journal but tell it records. -/
def Logging (x : Op Log.Journal α) : Prop := ∃ rs r, x.Logs rs r

theorem Logging.bind (hx : x.Logging) (hf : ∀ a, (f a).Logging) : (x >>= f).Logging := by
  obtain ⟨rs, r, hx⟩ := hx
  cases r with
  | error e => exact ⟨rs, _, hx.bind_error⟩
  | ok a =>
      obtain ⟨ss, r, hf⟩ := hf a
      exact ⟨rs ++ ss, r, hx.bind hf⟩

theorem logging_pure (a : α) : (pure a : Op Log.Journal α).Logging := ⟨_, _, logs_pure a⟩

theorem logging_stop (e : Fault) : (stop e : Op Log.Journal α).Logging := ⟨_, _, logs_stop e⟩

theorem logging_liftM (r : Except Fault α) : (liftM r : Op Log.Journal α).Logging :=
  ⟨_, _, logs_liftM r⟩

theorem logging_ite {c : Prop} [Decidable c] {y : Op Log.Journal α} (hx : x.Logging)
    (hy : y.Logging) : (if c then x else y).Logging := by
  split
  · exact hx
  · exact hy

end

end Op

open Op

namespace Device

/-- What a lenient device logs of an action that it lacks. -/
def missed (d : Device) (name : Value) : Log.Record :=
  ⟨.device, .error, s!"Unknown action {name.toText} on device {d.name.toText}, skipping"⟩

/-- A look-up logs nothing, or an action that a lenient device lacks. -/
theorem lookup_logs (d : Device) (name : Value) :
    match d.find? name with
    | .ok (some a) => (d.lookup name).Logs [] (.ok (some a))
    | .ok none =>
      if d.strict then (d.lookup name).Logs [] (.error (d.unknown [name]))
      else (d.lookup name).Logs [d.missed name] (.ok none)
    | .error e => (d.lookup name).Logs [] (.error e) := by
  rw [lookup]
  cases d.find? name with
  | error e => exact fun _ => rfl
  | ok found =>
      cases found with
      | some a => exact fun _ => rfl
      | none => cases d.strict <;> exact fun _ => rfl

theorem lookup_logging (d : Device) (name : Value) : (d.lookup name).Logging := by
  have h := d.lookup_logs name
  split at h
  · exact ⟨_, _, h⟩
  · split at h
    · exact ⟨_, _, h⟩
    · exact ⟨_, _, h⟩
  · exact ⟨_, _, h⟩

theorem command_logging (d : Device) (name wait : Value) : (d.command name wait).Logging := by
  refine (d.lookup_logging name).bind fun found => ?_
  cases found with
  | some a => exact (logging_liftM _).bind fun _ => logging_pure _
  | none => exact logging_pure _

theorem adaptedPress?_logging (d : Device) (name delay down up wait : Value) :
    (d.adaptedPress? name delay down up wait).Logging := by
  refine (d.lookup_logging name).bind fun found => ?_
  cases found with
  | some a => exact (logging_liftM _).bind fun _ => logging_pure _
  | none => exact logging_pure _

end Device

namespace Builder

variable (b : Builder)

theorem pressNamed_logging (d : Device) (name wait : Value) :
    (b.pressNamed d name wait).Logging :=
  (logging_liftM _).bind fun _ => d.command_logging name wait

theorem pressAll_logging (d : Device) (names : List Value) : (b.pressAll d names).Logging := by
  induction names with
  | nil => exact logging_pure _
  | cons n names ih =>
      exact (b.pressNamed_logging d n _).bind fun _ => ih.bind fun _ => logging_pure _

theorem actionCommands_logging (d : Device) (names : List Value) (wait : Value) :
    (b.actionCommands d names wait).Logging := by
  refine (b.pressAll_logging d names).bind fun ps => logging_ite (logging_liftM _) ?_
  refine (logging_liftM _).bind fun p => logging_ite ?_ (logging_pure _)
  exact (logging_liftM _).bind fun _ => logging_pure _

theorem commandsOf_logging (c : Call Value) : (b.commandsOf c).Logging := by
  have hactions := b.actionCommands_logging
  cases c with
  | action d n w =>
      refine (logging_liftM _).bind fun _ => ?_
      exact (b.pressNamed_logging _ n w).bind fun _ => logging_pure _
  | customAction d n x y t w =>
      refine (logging_liftM _).bind fun d => (logging_liftM _).bind fun _ => ?_
      exact (d.adaptedPress?_logging _ _ _ _ _).bind fun _ => logging_pure _
  | actions d ns ps w =>
      refine (logging_liftM _).bind fun _ => (logging_liftM _).bind fun _ => ?_
      exact (logging_liftM _).bind fun _ => hactions _ _ _
  | repeatAction d n c w =>
      refine (logging_liftM _).bind fun _ => (logging_liftM _).bind fun _ => ?_
      exact logging_ite (logging_pure _) ((logging_liftM _).bind fun _ => hactions _ _ _)
  | wait t => exact logging_liftM _
  | exec fn args w =>
      exact (logging_liftM _).bind fun _ => (logging_liftM _).bind fun _ => logging_pure _
  | query fn args => exact (logging_liftM _).bind fun _ => logging_pure _
  | typeText d v w =>
      exact (logging_liftM _).bind fun _ => (logging_liftM _).bind fun _ => hactions _ _ _
  | typeCoordinate d v w =>
      exact (logging_liftM _).bind fun _ => (logging_liftM _).bind fun _ => hactions _ _ _
  | typeNumber d v e s c w =>
      refine (logging_liftM _).bind fun _ => logging_ite (logging_pure _) ?_
      exact (logging_liftM _).bind fun _ => hactions _ _ _
  | _ => exact logging_pure _

theorem apply_logging (c : Call Value) : (b.apply c).Logging := by
  have appended {f : List Command → Builder × Reply} :
      (b.commandsOf c >>= fun cs => (pure (f cs) : Op Log.Journal _)).Logging :=
    (b.commandsOf_logging c).bind fun _ => logging_pure _
  cases c with
  | clear => exact logging_pure _
  | device n => exact (logging_liftM _).bind fun _ => logging_pure _
  | truncate n => exact (logging_liftM _).bind fun _ => logging_pure _
  | commands => exact logging_pure _
  | setStrict v => exact logging_pure _
  | misuse d =>
      cases d with
      | none => exact logging_stop _
      | some d => exact (logging_liftM _).bind fun _ => logging_stop _
  | _ => exact appended

end Builder

/-! ## Operations on workshops -/

/-- The workshop with another journal. -/
def Workshop.withJournal (j : Log.Journal) (w : Workshop) : Workshop := { w with journal := j }

namespace Op

open Workshop

variable {α β : Type} {x : Op Workshop α} {w t u : Workshop} {rs ss : List Log.Record} {a : α}
  {e : Fault} {r : Except Fault α} {id : BuilderId}

/-- Whether an operation ends in a result and a workshop and tells some records, whatever the
journal. -/
def Tells (x : Op Workshop α) (w : Workshop) (rs : List Log.Record) (r : Except Fault α)
    (t : Workshop) : Prop :=
  ∀ j, x.run (w.withJournal j) = (r, t.withJournal (j.addAll rs))

/-- The records that an operation tells. -/
def told (x : Op Workshop α) (w : Workshop) : List Log.Record :=
  (x.run (w.withJournal {})).2.journal.records

theorem Tells.told_eq (h : x.Tells w rs r t) : x.told w = rs := by
  rw [told, h, Log.Journal.addAll_of_debug rfl]
  rfl

theorem Tells.run_eq (h : x.Tells w rs r t) :
    x.run w = (r, t.withJournal (w.journal.addAll rs)) := h w.journal

theorem tells_pure (a : α) (w : Workshop) : (pure a : Op Workshop α).Tells w [] (.ok a) w :=
  fun _ => rfl

theorem tells_stop (e : Fault) (w : Workshop) : (stop e : Op Workshop α).Tells w [] (.error e) w :=
  fun _ => rfl

theorem tells_liftM (r : Except Fault α) (w : Workshop) :
    (liftM r : Op Workshop α).Tells w [] r w := fun _ => rfl

theorem tells_read (id : BuilderId) (f : Builder → α) (w : Workshop) :
    (read id f).Tells w [] (.ok (f (w.builder id))) w := fun _ => rfl

theorem tells_change (id : BuilderId) (f : Builder → Builder) (w : Workshop) :
    (change id f).Tells w [] (.ok ()) (w.changeBuilder id f) := fun _ => rfl

theorem Logs.tells {x : Op Log.Journal α} (h : x.Logs rs r) (w : Workshop) :
    (logged x).Tells w rs r w := by
  intro j
  rw [run_logged, h]
  rfl

theorem Tells.bind {f : α → Op Workshop β} {r : Except Fault β} (hx : x.Tells w rs (.ok a) t)
    (hf : (f a).Tells t ss r u) : (x >>= f).Tells w (rs ++ ss) r u := by
  intro j
  rw [run_bind_ok (hx j), hf, Log.Journal.addAll_append]

theorem Tells.bind_error {f : α → Op Workshop β} (hx : x.Tells w rs (.error e) t) :
    (x >>= f).Tells w rs (.error e) t := fun j => run_bind_error (hx j)

theorem Tells.attempt (hx : x.Tells w rs r t) : x.attempt.Tells w rs (.ok r) t := by
  intro j
  rw [run_attempt, hx]

theorem Tells.ensure (hx : x.Tells w rs r t) (id : BuilderId) (f : Builder → Builder) :
    (x.ensure (changeBuilder id f)).Tells w rs r (t.changeBuilder id f) := by
  intro j
  rw [run_ensure, hx]
  rfl

theorem Tells.onFault_error (hx : x.Tells w rs (.error e) t) (id : BuilderId)
    (f : Builder → Builder) :
    (x.onFault (changeBuilder id f)).Tells w rs (.error e) (t.changeBuilder id f) := by
  intro j
  rw [run_onFault, hx]
  rfl

theorem Tells.onFault_ok (hx : x.Tells w rs (.ok a) t) (undo : Workshop → Workshop) :
    (x.onFault undo).Tells w rs (.ok a) t := by
  intro j
  rw [run_onFault, hx]

/-- Whether an operation does nothing with the journal but tell it records. -/
def Telling (x : Op Workshop α) : Prop := ∀ w, ∃ rs r t, x.Tells w rs r t

theorem Telling.bind {f : α → Op Workshop β} (hx : x.Telling) (hf : ∀ a, (f a).Telling) :
    (x >>= f).Telling := by
  intro w
  obtain ⟨rs, r, t, hx⟩ := hx w
  cases r with
  | error e => exact ⟨rs, _, t, hx.bind_error⟩
  | ok a =>
      obtain ⟨ss, r, u, hf⟩ := hf a t
      exact ⟨rs ++ ss, r, u, hx.bind hf⟩

theorem telling_pure (a : α) : (pure a : Op Workshop α).Telling := fun w =>
  ⟨_, _, _, tells_pure a w⟩

theorem telling_stop (e : Fault) : (stop e : Op Workshop α).Telling := fun w =>
  ⟨_, _, _, tells_stop e w⟩

theorem telling_liftM (r : Except Fault α) : (liftM r : Op Workshop α).Telling := fun w =>
  ⟨_, _, _, tells_liftM r w⟩

theorem telling_read (id : BuilderId) (f : Builder → α) : (read id f).Telling := fun w =>
  ⟨_, _, _, tells_read id f w⟩

theorem telling_change (id : BuilderId) (f : Builder → Builder) : (change id f).Telling := fun w =>
  ⟨_, _, _, tells_change id f w⟩

theorem Logging.telling {x : Op Log.Journal α} (h : x.Logging) : (logged x).Telling := by
  obtain ⟨rs, r, h⟩ := h
  exact fun w => ⟨_, _, _, h.tells w⟩

theorem telling_ite {c : Prop} [Decidable c] {y : Op Workshop α} (hx : x.Telling)
    (hy : y.Telling) : (if c then x else y).Telling := by
  split
  · exact hx
  · exact hy

theorem Telling.attempt (hx : x.Telling) : x.attempt.Telling := by
  intro w
  obtain ⟨rs, r, t, hx⟩ := hx w
  exact ⟨_, _, _, hx.attempt⟩

theorem Telling.ensure (hx : x.Telling) (id : BuilderId) (f : Builder → Builder) :
    (x.ensure (changeBuilder id f)).Telling := by
  intro w
  obtain ⟨rs, r, t, hx⟩ := hx w
  exact ⟨_, _, _, hx.ensure id f⟩

theorem Telling.onFault (hx : x.Telling) (id : BuilderId) (f : Builder → Builder) :
    (x.onFault (changeBuilder id f)).Telling := by
  intro w
  obtain ⟨rs, r, t, hx⟩ := hx w
  cases r with
  | error e => exact ⟨_, _, _, hx.onFault_error id f⟩
  | ok a => exact ⟨_, _, _, hx.onFault_ok _⟩

end Op

namespace Workshop

theorem call_telling (id : BuilderId) (c : Call Value) : (call id c).Telling := by
  refine (telling_read id _).bind fun b => ?_
  exact (b.apply_logging c).telling.bind fun p => (telling_change id _).bind fun _ => telling_pure _

theorem addOwnQuery_telling (id : BuilderId) : (addOwnQuery id).Telling :=
  (telling_read id _).bind fun _ => (telling_liftM _).bind fun _ => telling_change id _

theorem block_telling (id : BuilderId) (h : BlockHead Value) {body : Op Workshop Unit}
    (hbody : body.Telling) : (block id h body).Telling := by
  refine (telling_liftM _).bind fun opener => Telling.bind ?_ fun start => ?_
  · refine (telling_read id _).bind fun b => telling_ite (telling_stop _) ?_
    exact (telling_change id _).bind fun _ => telling_pure _
  · exact ((hbody.onFault id _).ensure id _).bind fun _ => telling_change id _

theorem takeOver_telling (id other : BuilderId) : (takeOver id other).Telling := by
  refine (telling_read other _).bind fun b => (telling_read id _).bind fun q => ?_
  refine telling_ite (telling_stop _) ((telling_change id _).bind fun _ => ?_)
  exact (telling_read other _).bind fun _ => Logging.telling ⟨_, _, logs_say _ _ _⟩

theorem splice_telling {build : Building} (hb : ∀ id context, (build id context).Telling)
    (id other : BuilderId) (context : Value) : (splice build id other context).Telling := by
  refine (telling_change other _).bind fun _ => (telling_read other _).bind fun before => ?_
  refine (telling_read id _).bind fun taker => (telling_change other _).bind fun _ => ?_
  exact ((hb other context).ensure other _).bind fun _ => takeOver_telling id other

theorem find_telling (target : Target) : (find target).Telling := by
  intro w
  cases target with
  | named n =>
      cases hn : w.names.lookup n with
      | some id => exact ⟨[], .ok id, w, fun j => by rw [run_named, withJournal, hn]; rfl⟩
      | none =>
          exact ⟨[], .error (.missingKey n), w, fun j => by rw [run_named, withJournal, hn]; rfl⟩
  | fresh kind equipped strict fn args program =>
      cases hx : (if kind.asks then args.itemsIfSet else .ok [] : Except Fault (List Value)) with
      | ok xs =>
          let n := freshBench kind equipped strict fn xs program w
          exact ⟨[], .ok w.benches.length, w.withBench n, fun j => by rw [run_fresh, hx]; rfl⟩
      | error e => exact ⟨[], .error e, w, fun j => by rw [run_fresh, hx]; rfl⟩

theorem note_telling (r : Except Fault Unit) : (note r).Telling := by
  cases r with
  | ok u => exact fun w => ⟨[], .ok (), { w with caught := w.caught ++ [none] }, fun _ => rfl⟩
  | error f => exact fun w => ⟨[], .ok (), { w with caught := w.caught ++ [some f] }, fun _ => rfl⟩

end Workshop

/-! ## Programs and builds -/

variable {build : Building}

mutual

/-- A step does nothing with the journal but tell it records. -/
theorem Step.run_telling (hb : ∀ id context, (build id context).Telling) (id : BuilderId)
    (context : Value) : (s : Step) → (s.run build id context).Telling
  | .call c => by
      rw [Step.run]
      exact (telling_liftM _).bind fun c => Workshop.call_telling id c
  | .block head body => by
      rw [Step.run]
      refine (telling_liftM _).bind fun h => Telling.bind ?_ fun _ => telling_pure _
      exact Workshop.block_telling id h (Program.run_telling hb id context body)
  | .splice target c => by
      rw [Step.run]
      refine (Workshop.find_telling target).bind fun other => ?_
      refine (telling_liftM _).bind fun context => ?_
      exact (Workshop.splice_telling hb id other context).bind fun _ => telling_pure _
  | .build c => by
      rw [Step.run]
      exact (telling_liftM _).bind fun context => (hb id context).bind fun _ => telling_pure _
  | .raise f => by
      rw [Step.run]
      exact telling_stop f
  | .attempt body => by
      rw [Step.run]
      refine (Program.run_telling hb id context body).attempt.bind fun r => ?_
      exact (Workshop.note_telling r).bind fun _ => telling_pure _
  | .on target step => by
      rw [Step.run]
      exact (Workshop.find_telling target).bind fun other => Step.run_telling hb other context step
  | .inspect target => by
      rw [Step.run]
      exact (Workshop.find_telling target).bind fun other => telling_read other _
termination_by structural s => s

theorem Program.run_telling (hb : ∀ id context, (build id context).Telling) (id : BuilderId)
    (context : Value) : (ss : List Step) → (Program.run build id context ss).Telling
  | [] => by
      rw [Program.run]
      exact telling_pure ()
  | s :: ss => by
      rw [Program.run]
      exact (Step.run_telling hb id context s).bind fun _ => Program.run_telling hb id context ss
termination_by structural ss => ss

end

/-- Building does nothing with the journal but tell it records. -/
theorem Builder.build_telling (depth : Nat) :
    ∀ (id : BuilderId) (context : Value), (Builder.build depth id context).Telling := by
  induction depth with
  | zero => exact fun _ _ => telling_stop _
  | succ depth ih =>
      intro id context w
      -- an operation of the kind's own does what the build does, in a workshop with any journal
      have of_run {x : Op Workshop Unit} (hx : x.Telling)
          (h : ∀ j, (Builder.build (depth + 1) id context).run (w.withJournal j) =
            x.run (w.withJournal j)) :
          ∃ rs r t, (Builder.build (depth + 1) id context).Tells w rs r t := by
        obtain ⟨rs, r, t, hx⟩ := hx w
        exact ⟨rs, r, t, fun j => (h j).trans (hx j)⟩
      have hprogram : (Program.run (Builder.build depth) id context (w.bench id).program).Telling :=
        Program.run_telling ih id context _
      have hkind (j : Log.Journal) :
          ((w.withJournal j).builder id).kind = (w.builder id).kind := rfl
      cases hk : (w.builder id).kind with
      | plain =>
          refine of_run (telling_stop (.noBuild BuilderKind.plain.name)) fun j => ?_
          rw [run_build, hkind, hk]
          rfl
      | setup =>
          refine of_run (telling_change id fun b => b.append b.setupCommands) fun j => ?_
          rw [run_build, hkind, hk]
          rfl
      | teardown =>
          refine of_run (telling_change id (·.append teardownCommands)) fun j => ?_
          rw [run_build, hkind, hk]
          rfl
      | query =>
          refine of_run (Workshop.addOwnQuery_telling id) fun j => ?_
          rw [run_build, hkind, hk]
      | script =>
          refine of_run hprogram fun j => ?_
          rw [run_build, hkind, hk]
          rfl
      | scriptQuery =>
          refine of_run (hprogram.bind fun _ => Workshop.addOwnQuery_telling id) fun j => ?_
          rw [run_build, hkind, hk]
          rfl

end Cockpit
