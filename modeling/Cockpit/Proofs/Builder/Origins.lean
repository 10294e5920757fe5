import Cockpit.Proofs.Builder.Requests

/-!
# Where commands come from

`Builder.Issues` lists the ways in which a call makes a command, with the wait that goes into
it.  A press that is one of several never waits by itself, but the last one is given the wait of
the call.  `Request.Issues` says the same of a request, which is a call or a block.

*Invariants.*  Let a property of commands hold of all that the requests of a run issue and of
the commands around an upload.  If it holds of the streams before the run, it holds of them
after it, however it ends (`Program.run_holds`).  Presses come from the actions of an airframe,
so a property of airframes is carried along, which no run changes.

*Origins.*  So every command in a stream after a run was in a stream before, was issued by a
request of the run, or stands around an upload (`Program.run_origin`).
-/

namespace Cockpit

open Op

/-! ## Commands of calls -/

/-- The wait that a call asks for. -/
def Call.wait? : Call Value → Option Value
  | .action _ _ w => some w
  | .customAction _ _ _ _ _ w => some w
  | .actions _ _ _ w => some w
  | .repeatAction _ _ _ w => some w
  | .wait t => some t
  | .exec _ _ w => some w
  | .typeText _ _ w => some w
  | .typeCoordinate _ _ w => some w
  | .typeNumber _ _ _ _ _ w => some w
  | _ => none

/-- Where a call has the device from that it presses. -/
def Call.source? {α : Type} : Call α → Option (DeviceSource α)
  | .action v _ _ => some v
  | .customAction v _ _ _ _ _ => some v
  | .actions v _ _ _ => some v
  | .repeatAction v _ _ _ => some v
  | .typeText v _ _ => some v
  | .typeCoordinate v _ _ => some v
  | .typeNumber v _ _ _ _ _ => some v
  | _ => none

namespace Builder

/-- Whether a press is that of an action of the device of a call, with a wait. -/
def Presses (b : Builder) (c : Call Value) (wait : Value) (p : Press) : Prop :=
  ∃ v d a, c.source? = some v ∧ b.device v = .ok d ∧ a ∈ d.actions ∧ d.press a wait = .ok p

/-- How a call makes a command. -/
inductive Issues (b : Builder) : Call Value → Command → Prop where
  | action {v : DeviceSource Value} {n w : Value} {p : Press}
    (hp : b.Presses (.action v n w) w p) : Issues b (.action v n w) (.action p)
  | customAction {v : DeviceSource Value} {n down up delay w : Value} {d : Device} {a : Action}
    {p : Press} (hd : b.device v = .ok d) (ha : a ∈ d.actions)
    (hp : d.press (a.adapt delay down up) w = .ok p) :
    Issues b (.customAction v n down up delay w) (.action p)
  /-- One of several presses. -/
  | listed {c : Call Value} {p : Press} (hp : b.Presses c (.int 0) p) : Issues b c (.action p)
  /-- The last of several presses. -/
  | last {c : Call Value} {w : Value} {p q : Press} (hw : c.wait? = some w)
    (hp : b.Presses c (.int 0) p) (hq : p.thenWait w = .ok q) : Issues b c (.action q)
  /-- A wait, also that of a list of actions of which none is known. -/
  | wait {c : Call Value} {w : Value} (hw : c.wait? = some w) (h : w.isPositive = .ok true) :
    Issues b c (.wait w)
  | marker (m : Value) : Issues b (.marker m) (.marker m)
  | abort (m : Value) : Issues b (.abort m) (.abort m)
  | errorAbort (m : Value) :
    Issues b (.errorAbort m) (.abort (.text (Command.errorPrefix ++ m.toText)))
  | exec {fn args w u : Value} (hu : w.clampWait = .ok u) (xs : List String) :
    Issues b (.exec fn args w) (.exec fn xs u)
  | query (fn args : Value) (xs : List String) : Issues b (.query fn args) (.query fn xs)

end Builder

/-- What an airframe finds is one of its devices. -/
theorem Airframe.mem_of_device {r : Airframe} {name : Value} {d : Device}
    (hd : r.device name = .ok d) : d ∈ r.devices := by
  obtain ⟨found, hfound, hd⟩ := exists_of_bind_ok hd
  rw [find?] at hfound
  split at hfound
  · cases hfound
    split at hd
    next d' hf =>
      cases hd
      exact List.mem_of_find?_eq_some hf
    next => cases hd
  · cases hfound

/-- A builder has a device from its airframe, unless the author holds it. -/
theorem Builder.mem_of_device {b : Builder} {v : DeviceSource Value} {d : Device}
    (hd : b.device v = .ok d) : v = .held d ∨ ∃ r, b.airframe = some r ∧ d ∈ r.devices := by
  cases v with
  | held d' =>
      cases hd
      exact Or.inl rfl
  | named name =>
      rw [device, lookUp] at hd
      split at hd
      next r hr => exact Or.inr ⟨r, hr, Airframe.mem_of_device hd⟩
      next => cases hd

namespace Device

variable {d : Device} {name : Value}

/-- What a look-up gives is an action of the device. -/
theorem lookup_yields_mem (d : Device) (name : Value) :
    (d.lookup name).Yields fun found => ∀ a, found = some a → a ∈ d.actions := by
  refine Yields.bind (P := fun found => ∀ a, found = some a → a ∈ d.actions)
    (yields_liftM fun found h a ha => ?_) fun found h => ?_
  · rw [find?] at h
    split at h
    · cases h
      exact List.mem_of_find?_eq_some ha
    · cases h
  · cases found with
    | some a => exact yields_pure h
    | none =>
        refine yields_ite (fun _ _ _ hr => nomatch hr) ?_
        exact yields_bind fun _ => yields_pure nofun

/-- What is made of the action of a name is made of an action of the device. -/
theorem press_yields (d : Device) (name : Value) (f : Action → Except Fault Press) :
    (do
      match ← d.lookup name with
      | some a => return some (← f a)
      | none => return none : Op Log.Journal (Option Press)).Yields
        fun found => ∀ p, found = some p → ∃ a ∈ d.actions, f a = .ok p := by
  refine (d.lookup_yields_mem name).bind fun found h => ?_
  cases found with
  | none => exact yields_pure nofun
  | some a =>
      refine (yields_liftM (P := fun p => f a = .ok p) fun _ hp => hp).bind fun p hp => ?_
      refine yields_pure fun q hq => ⟨a, h a rfl, ?_⟩
      cases hq
      exact hp

end Device

namespace Builder

variable {b b' : Builder} {c : Call Value} {v : DeviceSource Value} {d : Device} {wait : Value}
  {x : Command}

theorem pressNamed_yields (hv : c.source? = some v) (hd : b.device v = .ok d) (n wait : Value) :
    (b.pressNamed d n wait).Yields fun found => ∀ p, found = some p → b.Presses c wait p := by
  refine yields_bind fun _ => ?_
  intro j found j' hr p hp
  obtain ⟨a, ha, hpress⟩ := d.press_yields n (d.press · wait) j found j' hr p hp
  exact ⟨v, d, a, hv, hd, ha, hpress⟩

theorem pressAll_yields (hv : c.source? = some v) (hd : b.device v = .ok d) (ns : List Value) :
    (b.pressAll d ns).Yields fun ps => ∀ p ∈ ps, b.Presses c (.int 0) p := by
  induction ns with
  | nil => exact yields_pure nofun
  | cons n ns ih =>
      refine (pressNamed_yields hv hd n _).bind fun found hfound => ?_
      refine ih.bind fun ps hps => yields_pure fun p hp => ?_
      rcases List.mem_append.mp hp with hp | hp
      · exact hfound p (Option.mem_toList.mp hp)
      · exact hps p hp

/-- Only the last of some presses is changed when it is given a wait. -/
theorem mem_waitAfterLast : ∀ {ps qs : List Press} {q : Press}, waitAfterLast wait ps = .ok qs →
    q ∈ qs → q ∈ ps ∨ ∃ p ∈ ps, p.thenWait wait = .ok q
  | [], qs, q, hqs, hq => by
      cases hqs
      cases hq
  | [p], qs, q, hqs, hq => by
      obtain ⟨p', ht, hqs⟩ := exists_of_bind_ok hqs
      cases hqs
      cases List.mem_singleton.mp hq
      exact Or.inr ⟨p, List.mem_cons_self, ht⟩
  | p :: p' :: ps, qs, q, hqs, hq => by
      obtain ⟨rs, ht, hqs⟩ := exists_of_bind_ok hqs
      cases hqs
      rcases List.mem_cons.mp hq with rfl | hq
      · exact Or.inl List.mem_cons_self
      · rcases mem_waitAfterLast ht hq with hold | ⟨r, hr, hwait⟩
        · exact Or.inl (List.mem_cons_of_mem p hold)
        · exact Or.inr ⟨r, List.mem_cons_of_mem p hr, hwait⟩

/-- A wait is a command only if it is positive. -/
theorem mem_waitCommand {cs : List Command} (h : waitCommand wait = .ok cs) (hx : x ∈ cs) :
    wait.isPositive = .ok true ∧ x = .wait wait := by
  obtain ⟨positive, hp, h⟩ := exists_of_bind_ok h
  cases h
  cases positive with
  | false => cases hx
  | true => exact ⟨hp, List.mem_singleton.mp hx⟩

/-- The commands of a list of actions are presses without a wait, the last of them with the
wait of the call, or that wait alone. -/
theorem actionCommands_yields (hv : c.source? = some v) (hw : c.wait? = some wait)
    (hd : b.device v = .ok d) (ns : List Value) :
    (b.actionCommands d ns wait).Yields fun cs => ∀ x ∈ cs, b.Issues c x := by
  refine (pressAll_yields hv hd ns).bind fun ps hps => yields_ite ?_ ?_
  · refine yields_liftM fun cs hcs x hx => ?_
    obtain ⟨hpositive, rfl⟩ := mem_waitCommand hcs hx
    exact .wait hw hpositive
  · refine yields_bind fun positive => yields_ite ?_ (yields_pure fun x hx => ?_)
    · refine (yields_liftM (P := fun qs => waitAfterLast wait ps = .ok qs) fun _ h => h).bind
        fun qs hqs => yields_pure fun x hx => ?_
      obtain ⟨q, hq, rfl⟩ := List.mem_map.mp hx
      rcases mem_waitAfterLast hqs hq with hq | ⟨p, hp, hwait⟩
      · exact .listed (hps q hq)
      · exact .last hw (hps p hp) hwait
    · obtain ⟨p, hp, rfl⟩ := List.mem_map.mp hx
      exact .listed (hps p hp)

/-- Every command of a call is issued by it. -/
theorem commandsOf_yields_issued (b : Builder) (c : Call Value) :
    (b.commandsOf c).Yields fun cs => ∀ x ∈ cs, b.Issues c x := by
  have hdevice {α : Type} {P : α → Prop} {v : DeviceSource Value} {f : Device → Op Log.Journal α}
      (hf : ∀ d, b.device v = .ok d → (f d).Yields P) :
      ((liftM (b.device v) : Op Log.Journal Device) >>= f).Yields P :=
    (yields_liftM fun _ hd => hd).bind hf
  have hsingle {y : Command} (hy : b.Issues c y) : ∀ x ∈ [y], b.Issues c x := by
    intro x hx
    cases List.mem_singleton.mp hx
    exact hy
  have hpressed {found : Option Press} (h : ∀ p, found = some p → b.Issues c (.action p)) :
      ∀ x ∈ found.toList.map Command.action, b.Issues c x := by
    intro x hx
    obtain ⟨p, hp, rfl⟩ := List.mem_map.mp hx
    exact h p (Option.mem_toList.mp hp)
  cases c with
  | action v n w =>
      refine hdevice fun d hd =>
        (pressNamed_yields (c := .action v n w) rfl hd n w).bind fun found hfound => ?_
      exact yields_pure (hpressed fun p hp => .action (hfound p hp))
  | customAction v n down up delay w =>
      refine hdevice fun d hd => yields_bind fun _ => ?_
      refine (d.press_yields n _).bind fun found hfound => yields_pure (hpressed fun p hp => ?_)
      obtain ⟨a, ha, hpress⟩ := hfound p hp
      exact .customAction hd ha hpress
  | actions v ns ps w =>
      refine hdevice fun d hd => yields_bind fun _ => yields_bind fun _ => ?_
      exact actionCommands_yields rfl rfl hd _
  | repeatAction v n count w =>
      refine hdevice fun d hd => yields_bind fun _ => yields_ite (yields_pure nofun) ?_
      exact yields_bind fun _ => actionCommands_yields rfl rfl hd _
  | wait t =>
      refine yields_liftM fun cs hcs x hx => ?_
      obtain ⟨hpositive, rfl⟩ := mem_waitCommand hcs hx
      exact .wait rfl hpositive
  | marker m => exact yields_pure (hsingle (.marker m))
  | abort m => exact yields_pure (hsingle (.abort m))
  | errorAbort m => exact yields_pure (hsingle (.errorAbort m))
  | exec fn args w =>
      refine (yields_liftM (P := fun u => w.clampWait = .ok u) fun _ hu => hu).bind fun u hu => ?_
      exact yields_bind fun xs => yields_pure (hsingle (.exec hu xs))
  | query fn args =>
      refine (yields_liftM (P := fun q => b.Issues (.query fn args) q) fun q hq => ?_).bind
        fun q hq => yields_pure (hsingle hq)
      obtain ⟨-, xs, -, rfl⟩ := queryCommand_eq_ok hq
      exact .query fn args xs
  | typeText v t w =>
      refine hdevice fun d hd => yields_bind fun _ => ?_
      exact actionCommands_yields rfl rfl hd _
  | typeCoordinate v t w =>
      refine hdevice fun d hd => yields_bind fun _ => ?_
      exact actionCommands_yields rfl rfl hd _
  | typeNumber v t enter signed clean w =>
      refine hdevice fun d hd => yields_ite (yields_pure nofun) ?_
      exact yields_bind fun _ => actionCommands_yields rfl rfl hd _
  | _ => exact yields_pure nofun

end Builder

/-! ## Commands of requests -/

namespace BlockHead

/-- The commands around a block. -/
inductive Issues (h : BlockHead Value) : Command → Prop where
  | openIf (hk : h.kind = .onceIf) (xs : List String) :
    Issues h (.openIf h.condition h.expected xs)
  | openWhile (hk : h.kind = .loopWhile) {u : Value} (hu : h.timeout.clampWait = .ok u)
    (xs : List String) : Issues h (.openWhile h.condition h.expected u xs)
  | closeIf : Issues h (.closeIf h.condition)
  | closeWhile : Issues h (.closeWhile h.condition)

theorem issues_opener {h : BlockHead Value} {x : Command} (hx : h.opener = .ok x) : h.Issues x := by
  rcases opener_cases hx with ⟨hk, xs, rfl⟩ | ⟨hk, u, xs, hu, rfl⟩
  · exact .openIf hk xs
  · exact .openWhile hk hu xs

theorem issues_closer (h : BlockHead Value) : h.Issues h.closer := by
  rw [closer]
  split
  · exact .closeIf
  · exact .closeWhile

end BlockHead

/-- The commands that a request issues: those of a call, or those around a block. -/
def Request.Issues (r : Request) (x : Command) : Prop :=
  match r.asked with
  | .inl c => r.builder.Issues c x
  | .inr h => h.Issues x

/-- Whether a command stands around an upload, which no request asks for. -/
def Command.FramesUpload (x : Command) : Prop :=
  (∃ b : Builder, x ∈ b.setupCommands) ∨ x ∈ Builder.teardownCommands

/-- Around an upload stand a procedure call without a wait and marks. -/
theorem Command.FramesUpload.exec_or_marker {x : Command} (h : x.FramesUpload) :
    (∃ fn args, x = .exec (.text fn) args (.int 0)) ∨ ∃ mark, x = .marker (.text mark) := by
  rcases h with ⟨b, hx⟩ | hx
  · rcases List.mem_cons.mp hx with rfl | hx
    · exact Or.inl ⟨_, _, rfl⟩
    · exact Or.inr ⟨_, List.mem_singleton.mp hx⟩
  · exact Or.inr ⟨_, List.mem_singleton.mp hx⟩

/-! ## What holds of builders -/

variable {P : Command → Prop} {A : Airframe → Prop}

/-- Whether the commands and the airframe of a builder have a property each. -/
structure Builder.Holds (P : Command → Prop) (A : Airframe → Prop) (b : Builder) : Prop where
  stream : ∀ x ∈ b.stream, P x
  airframe : ∀ a, b.airframe = some a → A a

/-- Whether all builders of a workshop have these properties, and its airframe has its one. -/
structure Workshop.Holds (P : Command → Prop) (A : Airframe → Prop) (w : Workshop) : Prop where
  builders : ∀ i, (w.builder i).Holds P A
  airframe : ∀ a, w.airframe = some a → A a

/-- Whether the commands that a request issues have a property, if its airframe has one. -/
def Request.Keeps (P : Command → Prop) (A : Airframe → Prop) (r : Request) : Prop :=
  (∀ a, r.builder.airframe = some a → A a) → ∀ x, r.Issues x → P x

namespace Builder

variable {b b' : Builder}

theorem Holds.append (h : b.Holds P A) {cs : Stream} (hcs : ∀ x ∈ cs, P x) :
    (b.append cs).Holds P A := by
  refine ⟨fun x hx => ?_, h.airframe⟩
  rcases List.mem_append.mp hx with hx | hx
  · exact h.stream x hx
  · exact hcs x hx

theorem Holds.append_one (h : b.Holds P A) {x : Command} (hx : P x) : (b.append [x]).Holds P A := by
  refine h.append fun y hy => ?_
  cases List.mem_singleton.mp hy
  exact hx

/-- A call leaves what it issues and what was there. -/
theorem Holds.apply (h : b.Holds P A) {c : Call Value} {reply : Reply} {j j' : Log.Journal}
    (hc : ∀ x, b.Issues c x → P x) (hr : (b.apply c).run j = (.ok (b', reply), j')) :
    b'.Holds P A := by
  rcases apply_cases hr with ⟨-, rfl⟩ | ⟨n, s, -, hs, rfl⟩ | ⟨v, -, rfl⟩ | ⟨cs, hcs, rfl⟩
  · exact ⟨nofun, h.airframe⟩
  · exact ⟨fun x hx => h.stream x ((Stream.sublist_of_truncate hs).subset hx), h.airframe⟩
  · exact ⟨h.stream, h.airframe⟩
  · exact h.append fun x hx => hc x (commandsOf_yields_issued b c _ _ _ hcs x hx)

end Builder

/-! ## What holds of workshops -/

namespace Workshop

variable {w t : Workshop} {id other : BuilderId} {f : Builder → Builder} {build : Building}
  {context : Value}

theorem Holds.of_benches (h : w.Holds P A) (hb : t.benches = w.benches)
    (ha : t.airframe = w.airframe) : t.Holds P A := by
  refine ⟨fun i => ?_, ?_⟩
  · rw [builder_congr hb]
    exact h.builders i
  · rw [ha]
    exact h.airframe

theorem Holds.change (h : w.Holds P A) (hf : (f (w.builder id)).Holds P A) :
    (w.changeBuilder id f).Holds P A := by
  refine ⟨fun i => ?_, h.airframe⟩
  rcases builder_changeBuilder_cases id f w i with hi | ⟨rfl, hi⟩
  · rw [hi]
    exact h.builders i
  · rw [hi]
    exact hf

theorem Holds.append (h : w.Holds P A) {cs : Stream} (hcs : ∀ x ∈ cs, P x) (id : BuilderId) :
    (w.changeBuilder id (·.append cs)).Holds P A := h.change ((h.builders id).append hcs)

theorem Holds.append_one (h : w.Holds P A) {x : Command} (hx : P x) (id : BuilderId) :
    (w.changeBuilder id (·.append [x])).Holds P A := h.change ((h.builders id).append_one hx)

theorem Holds.withBench (h : w.Holds P A) {n : Bench} (hn : n.builder.Holds P A) :
    (w.withBench n).Holds P A := by
  refine ⟨fun i => ?_, h.airframe⟩
  rcases bench_withBench_cases n w i with hi | ⟨-, hi⟩
  · rw [builder, hi]
    exact h.builders i
  · rw [builder, hi]
    exact hn

/-- A builder on loan has no commands. -/
theorem Holds.lent (h : w.Holds P A) (id other : BuilderId) : (w.lent id other).Holds P A := by
  have hclear : (w.changeBuilder other Builder.clear).Holds P A :=
    h.change ⟨nofun, (h.builders other).airframe⟩
  exact hclear.change ⟨nofun, (hclear.builders other).airframe⟩

theorem find_holds (target : Target) : (find target).Preserves (Holds P A) := by
  intro w hw
  cases target with
  | named n =>
      rw [run_named]
      cases w.names.lookup n with
      | some id => exact hw
      | none => exact hw
  | fresh kind equipped strict fn args program =>
      rw [run_fresh]
      split
      · refine hw.withBench ⟨nofun, fun a ha => ?_⟩
        cases equipped with
        | true => exact hw.airframe a ha
        | false => cases ha
      · exact hw

theorem call_holds {c : Call Value} (h : w.Holds P A) (hc : ∀ x, (w.builder id).Issues c x → P x) :
    ((call id c).run w).2.Holds P A := by
  rw [run_call]
  rcases hr : ((w.builder id).apply c).run w.journal with ⟨e | ⟨b, reply⟩, j⟩
  · exact h.of_benches rfl rfl
  · have hj : ({ w with journal := j } : Workshop).Holds P A := h.of_benches rfl rfl
    exact hj.change (f := fun _ => b) ((h.builders id).apply hc hr)

theorem addOwnQuery_holds (h : w.Holds P A)
    (hr : ∀ r ∈ (w.builder id).ownRequests, r.Keeps P A) : ((addOwnQuery id).run w).2.Holds P A := by
  rw [addOwnQuery, read, bind_assoc, run_state_bind, pure_bind, run_liftM_bind]
  cases hq : (w.builder id).addOwnQuery with
  | error e => exact h
  | ok b =>
      obtain ⟨-, xs, rfl⟩ := Builder.addOwnQuery_eq_ok hq
      have hset : (w.builder id).fn.isSet = true := by
        refine Bool.of_not_eq_false fun hn => ?_
        rw [Builder.addOwnQuery, hn] at hq
        cases hq
      have hasked := hr ⟨w.builder id, .inl (.query (w.builder id).fn (.list (w.builder id).args)),
        false⟩ (by rw [Builder.ownRequests, if_pos hset]; exact List.mem_cons_self)
      exact h.append_one (hasked (h.builders id).airframe _ (Builder.Issues.query _ _ xs)) id

theorem takeOver_holds (id other : BuilderId) : (takeOver id other).Preserves (Holds P A) := by
  intro w hw
  rw [run_takeOver]
  split
  · exact hw
  · have ht : (w.takenOver id other).Holds P A := hw.append (hw.builders other).stream id
    exact ht.of_benches rfl rfl

/-- A splice keeps what building keeps. -/
theorem splice_holds (hbuild : ((build other context).run (w.lent id other)).2.Holds P A) :
    ((splice build id other context).run w).2.Holds P A := by
  have hback {t : Workshop} (ht : t.Holds P A) (before : Builder) :
      (t.changeBuilder other (giveBack before)).Holds P A :=
    ht.change ⟨(ht.builders other).stream, (ht.builders other).airframe⟩
  rw [run_splice]
  rcases hr : (build other context).run (w.lent id other) with ⟨e | u, t⟩
  · rw [hr] at hbuild
    exact hback hbuild _
  · rw [hr] at hbuild
    exact takeOver_holds id other _ (hback hbuild _)

/-- A block keeps what its body keeps, if the commands around it have the property. -/
theorem block_holds {h : BlockHead Value} {body : Op Workshop Unit} (hw : w.Holds P A)
    (hh : ∀ x, h.Issues x → P x)
    (hbody : ∀ opener, h.opener = .ok opener →
      (w.builder id).openConditions.any (·.same h.condition) = false →
        (w.opened id h.condition opener).Holds P A →
          (body.run (w.opened id h.condition opener)).2.Holds P A) :
    ((block id h body).run w).2.Holds P A := by
  rcases run_block_cases id h body w with ⟨e, hr⟩ | ⟨opener, ho, hn, hr⟩
  · rw [hr]
    exact hw
  · have hopener := (hw.builders id).append_one (hh opener (BlockHead.issues_opener ho))
    have hopened : (w.opened id h.condition opener).Holds P A :=
      hw.change ⟨hopener.stream, hopener.airframe⟩
    have ht := hbody opener ho hn hopened
    rw [hr]
    rcases hb : body.run (w.opened id h.condition opener) with ⟨e | u, t⟩
    · rw [hb] at ht
      have hcut : (cutBack id (w.builder id).stream.length t).Holds P A :=
        ht.change ⟨fun x hx => (ht.builders id).stream x (List.mem_of_mem_take hx),
          (ht.builders id).airframe⟩
      have hdrop : (dropCondition id (cutBack id (w.builder id).stream.length t)).Holds P A :=
        hcut.change ⟨(hcut.builders id).stream, (hcut.builders id).airframe⟩
      exact hdrop
    · rw [hb] at ht
      have hdrop : (dropCondition id t).Holds P A :=
        ht.change ⟨(ht.builders id).stream, (ht.builders id).airframe⟩
      exact hdrop.append_one (hh _ h.issues_closer) id

end Workshop

/-! ## What holds of runs -/

open Workshop

/-- Whether building keeps what its requests keep. -/
def Building.Holding (P : Command → Prop) (A : Airframe → Prop) (build : Building)
    (inner : Inquiry) : Prop :=
  ∀ (id : BuilderId) (context : Value) (w : Workshop), w.Holds P A →
    (∀ r ∈ inner id context w, r.Keeps P A) → ((build id context).run w).2.Holds P A

variable {build : Building} {inner : Inquiry}

mutual

/-- A step keeps what its requests keep, however it ends. -/
theorem Step.run_holds (hb : build.Holding P A inner) : ∀ (s : Step) {id : BuilderId}
    {context : Value} {w : Workshop}, w.Holds P A →
      (∀ r ∈ s.requests build inner id context w, r.Keeps P A) →
        ((s.run build id context).run w).2.Holds P A
  | .call c, id, context, w => by
      intro hw hr
      rw [Step.requests] at hr
      rw [Step.run, run_liftM_bind]
      cases hc : c.resolve context with
      | error e => exact hw
      | ok c' =>
          rw [hc] at hr
          exact call_holds hw (hr _ List.mem_cons_self (hw.builders id).airframe)
  | .block head body, id, context, w => by
      intro hw hr
      rw [Step.requests] at hr
      rw [Step.run, run_liftM_bind]
      cases hh : head.resolve context with
      | error e => exact hw
      | ok h =>
          rw [hh] at hr
          dsimp only
          rw [state_bind_pure]
          have hframe := hr _ List.mem_cons_self (hw.builders id).airframe
          refine block_holds hw hframe fun opener ho hn hopened => ?_
          refine Program.run_holds hb body hopened fun r hm => hr r (List.mem_cons_of_mem _ ?_)
          rw [follow_ok (Step.run_openCondition hh ho hn)]
          exact hm
  | .splice target c, id, context, w => by
      intro hw hr
      rw [Step.requests] at hr
      rw [Step.run]
      refine bind_keeps (find_holds target w hw) fun other t hfind ht => ?_
      rw [follow_ok hfind] at hr
      rw [run_liftM_bind]
      cases hc : c.resolve context with
      | error e => exact ht
      | ok context' =>
          rw [hc] at hr
          dsimp only
          rw [state_bind_pure]
          exact splice_holds (hb other context' _ (ht.lent id other) hr)
  | .build c, id, context, w => by
      intro hw hr
      rw [Step.requests] at hr
      rw [Step.run, run_liftM_bind]
      cases hc : c.resolve context with
      | error e => exact hw
      | ok context' =>
          rw [hc] at hr
          dsimp only
          rw [state_bind_pure]
          exact hb id context' w hw hr
  | .raise f, _, _, w => fun hw _ => hw
  | .attempt body, id, context, w => by
      intro hw hr
      rw [Step.requests] at hr
      have hbody : ((Program.run build id context body).run w).2.Holds P A :=
        Program.run_holds hb body hw fun r hm =>
          show r.attempted.Keeps P A from hr _ (List.mem_map_of_mem hm)
      exact hbody.of_benches rfl rfl
  | .on target step, id, context, w => by
      intro hw hr
      rw [Step.requests] at hr
      rw [Step.run]
      refine bind_keeps (find_holds target w hw) fun other t hfind ht => ?_
      rw [follow_ok hfind] at hr
      exact Step.run_holds hb step ht hr
  | .inspect target, id, context, w => by
      intro hw _
      rw [Step.run]
      exact bind_keeps (find_holds target w hw) fun other t _ ht => ht
termination_by structural s => s

/-- So do steps in order. -/
theorem Program.run_holds (hb : build.Holding P A inner) : ∀ (ss : List Step) {id : BuilderId}
    {context : Value} {w : Workshop}, w.Holds P A →
      (∀ r ∈ Program.requests build inner id context ss w, r.Keeps P A) →
        ((Program.run build id context ss).run w).2.Holds P A
  | [], _, _, _ => fun hw _ => hw
  | s :: ss, id, context, w => by
      intro hw hr
      rw [Program.requests] at hr
      rw [Program.run]
      have hs : ((s.run build id context).run w).2.Holds P A :=
        Step.run_holds hb s hw fun r hm => hr r (List.mem_append_left _ hm)
      refine bind_keeps hs fun u t hrun ht => ?_
      refine Program.run_holds hb ss ht fun r hm => hr r (List.mem_append_right _ ?_)
      rw [follow_ok hrun]
      exact hm
termination_by structural ss => ss

end

/-- Building keeps what its requests keep, to whatever depth. -/
theorem Builder.build_holds (hframe : ∀ x : Command, x.FramesUpload → P x) (depth : Nat) :
    (Builder.build depth).Holding P A (Builder.requests depth) := by
  induction depth with
  | zero => exact fun _ _ _ hw _ => hw
  | succ depth ih =>
      intro id context w hw hr
      rw [Builder.requests] at hr
      rw [run_build]
      cases hk : (w.builder id).kind with
      | plain => exact hw
      | setup => exact hw.append (fun x hx => hframe x (Or.inl ⟨_, hx⟩)) id
      | teardown => exact hw.append (fun x hx => hframe x (Or.inr hx)) id
      | query =>
          rw [hk] at hr
          exact addOwnQuery_holds hw hr
      | script =>
          rw [hk] at hr
          exact Program.run_holds ih _ hw hr
      | scriptQuery =>
          rw [hk] at hr
          have hp : ((Program.run (Builder.build depth) id context
              (w.bench id).program).run w).2.Holds P A :=
            Program.run_holds ih _ hw fun r hm => hr r (List.mem_append_left _ hm)
          refine bind_keeps hp fun u t hrun ht => addOwnQuery_holds ht fun r hm => ?_
          refine hr r (List.mem_append_right _ ?_)
          rw [follow_ok hrun]
          exact hm

/-- Where a command may stem from after a run that began in a workshop and made requests. -/
inductive Command.StemsFrom (w : Workshop) (rs : List Request) (x : Command) : Prop where
  /-- It was in a stream before. -/
  | held {i : BuilderId} (h : x ∈ (w.builder i).stream)
  | issued {r : Request} (hr : r ∈ rs) (h : r.Issues x)
  | framing (h : x.FramesUpload)

/-- Every command in a stream after a run was in a stream before, was issued by a request of the
run, or stands around an upload. -/
theorem Program.run_origin (depth : Nat) {id i : BuilderId} {context : Value} {ss : Program}
    {w : Workshop} {x : Command}
    (hx : x ∈ (((Program.run (Builder.build depth) id context ss).run w).2.builder i).stream) :
    x.StemsFrom w
      (Program.requests (Builder.build depth) (Builder.requests depth) id context ss w) := by
  let rs := Program.requests (Builder.build depth) (Builder.requests depth) id context ss w
  have hw : w.Holds (Command.StemsFrom w rs) fun _ => True :=
    ⟨fun _ => ⟨fun _ hy => .held hy, fun _ _ => trivial⟩, fun _ _ => trivial⟩
  have hbuild := Builder.build_holds (P := Command.StemsFrom w rs) (A := fun _ => True)
    (fun _ hy => .framing hy) depth
  have hrun := Program.run_holds hbuild ss hw fun r hr _ y hy => .issued hr hy
  exact (hrun.builders i).stream x hx

end Cockpit
