import Cockpit.Proofs.Builder.Events
import Cockpit.Proofs.Builder.OneQuery

/-!
# What a run asks of its builders

A run makes calls and opens blocks, on the builder at hand and on those that it splices.  The
*requests* of a run are all of these, each with the builder as it then was, and with whether an
attempt around it would catch its fault.  They are computed along the run, as its events are.

A strict builder stays strict while programs run that set no strictness and ask no other builder,
and a builder on loan to a strict one is strict (`Program.run_steadfast`).  So if such a program
runs on a strict builder, and any action that it asks for is unknown, at whatever depth, then it
fails, unless the fault is caught (`Program.run_unknown`).
-/

namespace Cockpit

/-- One thing that a run asks of a builder. -/
structure Request where
  /-- The builder as it is when it is asked. -/
  builder : Builder
  /-- A call, or the head of a block. -/
  asked : Call Value ⊕ BlockHead Value
  /-- Whether a fault would be caught. -/
  caught : Bool := false

/-- A request inside an attempt. -/
def Request.attempted (r : Request) : Request := { r with caught := true }

/-- The request for the query of a builder, if it has one. -/
def Builder.ownRequests (b : Builder) : List Request :=
  if b.fn.isSet then [⟨b, .inl (.query b.fn (.list b.args)), false⟩] else []

/-- What is asked while a builder builds in a context and a workshop. -/
abbrev Inquiry := BuilderId → Value → Workshop → List Request

mutual

/-- What a step on a builder asks. -/
def Step.requests (build : Building) (inner : Inquiry) (id : BuilderId) (context : Value) :
    Step → Workshop → List Request
  | .call c, w =>
    (liftM (c.resolve context) : Op Workshop _).follow w fun c w =>
      [⟨w.builder id, .inl c, false⟩]
  | .block head body, w =>
    (liftM (head.resolve context) : Op Workshop _).follow w fun h w =>
      ⟨w.builder id, .inr h, false⟩ ::
        (Step.openCondition id context head).follow w fun _ w =>
          Program.requests build inner id context body w
  | .splice target c, w =>
    (Workshop.find target).follow w fun other w =>
      (liftM (c.resolve context) : Op Workshop _).follow w fun context w =>
        inner other context (w.lent id other)
  | .build c, w =>
    (liftM (c.resolve context) : Op Workshop _).follow w fun context w => inner id context w
  | .raise _, _ => []
  | .attempt body, w => (Program.requests build inner id context body w).map Request.attempted
  | .on target step, w =>
    (Workshop.find target).follow w fun other w => Step.requests build inner other context step w
  | .inspect _, _ => []
termination_by structural s => s

/-- What steps ask in order. -/
def Program.requests (build : Building) (inner : Inquiry) (id : BuilderId) (context : Value) :
    List Step → Workshop → List Request
  | [], _ => []
  | s :: ss, w =>
    Step.requests build inner id context s w ++
      (Step.run build id context s).follow w fun _ w =>
        Program.requests build inner id context ss w
termination_by structural ss => ss

end

/-- What is asked while a builder builds, where builders may build inside one another to a
depth. -/
def Builder.requests : (depth : Nat) → Inquiry
  | 0, _, _, _ => []
  | depth + 1, id, context, w =>
    let program := (w.bench id).program
    match (w.builder id).kind with
    | .query => (w.builder id).ownRequests
    | .script =>
      Program.requests (Builder.build depth) (Builder.requests depth) id context program w
    | .scriptQuery =>
      Program.requests (Builder.build depth) (Builder.requests depth) id context program w ++
        (Program.run (Builder.build depth) id context program).follow w fun _ w =>
          (w.builder id).ownRequests
    | _ => []

/-! ## Faults -/

namespace Op

variable {σ α β : Type} {x : Op σ α} {f : α → Op σ β} {s : σ}

/-- Whether an operation ends in a fault. -/
def Fails (x : Op σ α) (s : σ) : Prop := ∃ e t, x.run s = (.error e, t)

theorem fails_liftM (e : Fault) (s : σ) : (liftM (.error e : Except Fault α) : Op σ α).Fails s :=
  ⟨e, s, rfl⟩

theorem Fails.bind (h : x.Fails s) : (x >>= f).Fails s := by
  obtain ⟨e, t, h⟩ := h
  exact ⟨e, t, run_bind_error h⟩

/-- A sequence fails if it fails after every result of its first part. -/
theorem fails_bind (h : ∀ a t, x.run s = (.ok a, t) → (f a).Fails t) : (x >>= f).Fails s := by
  rcases hr : x.run s with ⟨e | a, t⟩
  · exact ⟨e, t, run_bind_error hr⟩
  · rw [Fails, run_bind_ok hr]
    exact h a t hr

theorem fails_liftM_bind {r : Except Fault α} (h : ∀ a, r = .ok a → (f a).Fails s) :
    ((liftM r : Op σ α) >>= f).Fails s := by
  refine fails_bind fun a t hr => ?_
  obtain ⟨ha, rfl⟩ : r = .ok a ∧ s = t := Prod.mk.inj hr
  exact h a ha

/-- What happens after an operation happens after a result of it. -/
theorem mem_follow {γ : Type} {g : α → σ → List γ} {c : γ} (h : c ∈ x.follow s g) :
    ∃ a t, x.run s = (.ok a, t) ∧ c ∈ g a t := by
  rcases hr : x.run s with ⟨e | a, t⟩
  · rw [follow_error hr] at h
    cases h
  · rw [follow_ok hr] at h
    exact ⟨a, t, rfl, h⟩

theorem mem_follow_liftM {γ : Type} {r : Except Fault α} {g : α → σ → List γ} {c : γ}
    (h : c ∈ (liftM r : Op σ α).follow s g) : ∃ a, r = .ok a ∧ c ∈ g a s := by
  obtain ⟨a, t, hr, hc⟩ := mem_follow h
  obtain ⟨ha, rfl⟩ : r = .ok a ∧ s = t := Prod.mk.inj hr
  exact ⟨a, ha, hc⟩

end Op

open Op

/-! ## Unknown actions -/

namespace Builder

variable {b : Builder} {c : Call Value} {d : Device} {name : Value}

/-- The actions that a call asks for, with their device. -/
inductive Asks (b : Builder) : Call Value → Device → Value → Prop where
  | action {v : DeviceSource Value} {name wait : Value} {d : Device} (hd : b.device v = .ok d) :
    Asks b (.action v name wait) d name
  | customAction {v : DeviceSource Value} {name down up delay wait : Value} {d : Device}
    (hd : b.device v = .ok d) : Asks b (.customAction v name down up delay wait) d name
  | actions {v : DeviceSource Value} {names posts wait name : Value} {d : Device}
    {ns ps : List Value} (hd : b.device v = .ok d) (hn : names.itemsIfSet = .ok ns)
    (hp : posts.itemsIfSet = .ok ps) (h : name ∈ ns ++ ps) :
    Asks b (.actions v names posts wait) d name
  | repeatAction {v : DeviceSource Value} {n count wait name : Value} {d : Device}
    {ns : List Value} (hd : b.device v = .ok d) (hc : count.isBelow (.int 1) = .ok false)
    (hn : copies n count = .ok ns) (h : name ∈ ns) : Asks b (.repeatAction v n count wait) d name
  | typeText {v : DeviceSource Value} {value wait key : Value} {d : Device} {keys : List Value}
    (hd : b.device v = .ok d) (hk : Keypad.textKeys value = .ok keys) (h : key ∈ keys) :
    Asks b (.typeText v value wait) d key
  | typeCoordinate {v : DeviceSource Value} {value wait key : Value} {d : Device}
    {keys : List Value} (hd : b.device v = .ok d) (hk : Keypad.coordinateKeys value = .ok keys)
    (h : key ∈ keys) : Asks b (.typeCoordinate v value wait) d key
  | typeNumber {v : DeviceSource Value} {value enter signed clean wait key : Value} {d : Device}
    {keys : List Value} (hd : b.device v = .ok d) (hv : value.isSet = true)
    (hk : Keypad.numberKeys clean.isSet value signed.isSet = .ok keys)
    (h : key ∈ keys ++ if enter.isSet then [enter] else []) :
    Asks b (.typeNumber v value enter signed clean wait) d key

/-- A strict builder does not press an action that the device lacks. -/
theorem checkName_unknown (hb : b.strict = true) (h : d.find? name = .ok none) :
    ∃ e, b.checkName d name = .error e := by
  refine ⟨d.unknown [name], ?_⟩
  rw [checkName, if_pos hb, Device.require_singleton, h]

theorem checkName_fails {α : Type} {f : Unit → Op Log.Journal α} {j : Log.Journal}
    (hb : b.strict = true) (h : d.find? name = .ok none) :
    ((liftM (b.checkName d name) : Op Log.Journal Unit) >>= f).Fails j := by
  obtain ⟨e, he⟩ := checkName_unknown hb h
  rw [he]
  exact (fails_liftM e j).bind

theorem pressAll_fails {names : List Value} (hb : b.strict = true) (hn : name ∈ names)
    (h : d.find? name = .ok none) : ∀ j, (b.pressAll d names).Fails j := by
  induction names with
  | nil => cases hn
  | cons n ns ih =>
      intro j
      rcases List.mem_cons.mp hn with rfl | hn
      · exact (checkName_fails hb h).bind
      · exact fails_bind fun _ t _ => (ih hn t).bind

/-- A call of a strict builder for an action that the device lacks fails. -/
theorem commandsOf_fails (hb : b.strict = true) (hc : b.Asks c d name)
    (h : d.find? name = .ok none) (j : Log.Journal) : (b.commandsOf c).Fails j := by
  have hactions {names : List Value} (hn : name ∈ names) (wait : Value) :
      (b.actionCommands d names wait).Fails j := (pressAll_fails hb hn h j).bind
  cases hc with
  | action hd =>
      rw [commandsOf, hd]
      exact (checkName_fails hb h).bind
  | customAction hd =>
      rw [commandsOf, hd]
      exact checkName_fails hb h
  | actions hd hn hp hm =>
      rw [commandsOf, hd, hn, hp]
      exact hactions hm _
  | repeatAction hd hc hn hm =>
      rw [commandsOf, hd, hc, hn]
      exact hactions hm _
  | typeText hd hk hm =>
      rw [commandsOf, hd, hk]
      exact hactions hm _
  | typeCoordinate hd hk hm =>
      rw [commandsOf, hd, hk]
      exact hactions hm _
  | typeNumber hd hv hk hm =>
      rw [commandsOf, hd, hv, hk]
      exact hactions hm _

theorem apply_fails (hb : b.strict = true) (hc : b.Asks c d name)
    (h : d.find? name = .ok none) (j : Log.Journal) : (b.apply c).Fails j := by
  have hcommands := commandsOf_fails hb hc h j
  cases hc <;> exact hcommands.bind

end Builder

/-- Whether a request asks for an action that is unknown. -/
def Request.AsksUnknown (r : Request) : Prop :=
  ∃ c d name, r.asked = .inl c ∧ r.builder.Asks c d name ∧ d.find? name = .ok none

/-! ## Builders that stay strict -/

mutual

/-- Whether a step sets no strictness and asks no other builder, and neither do the programs of
the builders that it makes. -/
def Step.isLoyal : Step → Bool
  | .call (.setStrict _) => false
  | .call _ => true
  | .block _ body => Program.isLoyal body
  | .splice target _ => target.isLoyal
  | .build _ => true
  | .raise _ => true
  | .attempt body => Program.isLoyal body
  | .on _ _ => false
  | .inspect target => target.isLoyal
termination_by structural s => s

/-- Whether a target is there already, or has a loyal program. -/
def Target.isLoyal : Target → Bool
  | .named _ => true
  | .fresh _ _ _ _ _ program => Program.isLoyal program
termination_by structural t => t

/-- Whether all steps of a program are loyal. -/
def Program.isLoyal : List Step → Bool
  | [] => true
  | s :: ss => s.isLoyal && Program.isLoyal ss
termination_by structural ss => ss

end

namespace Workshop

variable {v w t : Workshop} {id other : BuilderId} {f : Builder → Builder} {build : Building}

/-- Whether the programs of all builders are loyal. -/
def Loyal (w : Workshop) : Prop := ∀ i, Program.isLoyal (w.bench i).program = true

/-- Whether what was strict in a workshop is strict in another one, where all programs are
loyal. -/
structure Steadfast (w t : Workshop) : Prop where
  strict : ∀ i, (w.builder i).strict = true → (t.builder i).strict = true
  loyal : t.Loyal

theorem Steadfast.refl (h : w.Loyal) : Steadfast w w := ⟨fun _ hi => hi, h⟩

/-- Where there is no builder, none is strict. -/
theorem lt_of_strict (h : (w.builder id).strict = true) : id < w.benches.length := by
  refine Nat.lt_of_not_le fun hle => ?_
  rw [builder_of_length_le hle] at h
  cases h

theorem Loyal.change (h : w.Loyal) (id : BuilderId) (f : Builder → Builder) :
    (w.changeBuilder id f).Loyal := by
  intro i
  rw [changeBuilder, program_setBuilder]
  exact h i

theorem Steadfast.change (h : Steadfast w t)
    (hf : (t.builder id).strict = true → (f (t.builder id)).strict = true) :
    Steadfast w (t.changeBuilder id f) := by
  refine ⟨fun i hi => ?_, h.loyal.change id f⟩
  have hit := h.strict i hi
  rcases builder_changeBuilder_cases id f t i with he | ⟨rfl, he⟩
  · rwa [he]
  · rw [he]
    exact hf hit

theorem Steadfast.of_benches (h : Steadfast w t) (hb : v.benches = t.benches) :
    Steadfast w v := by
  refine ⟨fun i hi => ?_, fun i => ?_⟩
  · rw [builder_congr hb]
    exact h.strict i hi
  · rw [bench, hb]
    exact h.loyal i

theorem Steadfast.withBench (h : Steadfast w t) {n : Bench}
    (hn : Program.isLoyal n.program = true) : Steadfast w (t.withBench n) := by
  refine ⟨fun i hi => ?_, fun i => ?_⟩
  · have hit := h.strict i hi
    rwa [builder_withBench_of_lt n (lt_of_strict hit)]
  · rcases bench_withBench_cases n t i with hi | ⟨-, hi⟩
    · rw [hi]
      exact h.loyal i
    · rw [hi]
      exact hn

/-! ### Operations -/

theorem preserves_read {α : Type} {P : Workshop → Prop} (id : BuilderId) (f : Builder → α) :
    (read id f).Preserves P := preserves_state.bind fun _ => preserves_pure _

theorem change_steadfast (hf : ∀ b : Builder, b.strict = true → (f b).strict = true)
    (id : BuilderId) : (change id f).Preserves (Steadfast w) :=
  preserves_update fun _ h => h.change (hf _)

theorem logged_steadfast {α : Type} (x : Op Log.Journal α) :
    (logged x).Preserves (Steadfast w) := preserves_on x fun _ _ h => h.of_benches rfl

theorem call_steadfast (id : BuilderId) {c : Call Value} (hc : ∀ v, c ≠ .setStrict v) :
    (call id c).Preserves (Steadfast w) := by
  intro t h
  rw [run_call]
  rcases hr : ((t.builder id).apply c).run t.journal with ⟨e | ⟨b, r⟩, j⟩
  · exact h.of_benches rfl
  · have hj : Steadfast w { t with journal := j } := h.of_benches rfl
    refine hj.change (f := fun _ => b) fun hb => ?_
    rcases Builder.apply_cases hr with ⟨-, rfl⟩ | ⟨n, s, -, -, rfl⟩ | ⟨v, rfl, -⟩ | ⟨cs, -, rfl⟩
    · exact hb
    · exact hb
    · exact absurd rfl (hc v)
    · exact hb

theorem find_steadfast {target : Target} (ht : target.isLoyal = true) :
    (find target).Preserves (Steadfast w) := by
  intro t h
  cases target with
  | named n =>
      rw [run_named]
      cases t.names.lookup n with
      | some id => exact h
      | none => exact h
  | fresh kind equipped strict fn args program =>
      rw [run_fresh]
      split
      · exact h.withBench ht
      · exact h

theorem addOwnQuery_steadfast (id : BuilderId) : (addOwnQuery id).Preserves (Steadfast w) := by
  intro t h
  rw [addOwnQuery, read, bind_assoc, run_state_bind, pure_bind, run_liftM_bind]
  cases hq : (t.builder id).addOwnQuery with
  | error e => exact h
  | ok b =>
      obtain ⟨-, xs, rfl⟩ := Builder.addOwnQuery_eq_ok hq
      have hb : ((t.builder id).append [.query (t.builder id).fn xs]).strict =
          (t.builder id).strict := rfl
      exact h.change (f := fun _ => _) hb.trans

/-- A block keeps builders strict if its body does. -/
theorem block_steadfast (id : BuilderId) (h : BlockHead Value) {body : Op Workshop Unit}
    (hbody : body.Preserves (Steadfast w)) : (block id h body).Preserves (Steadfast w) := by
  have hchange {f : Builder → Builder} (hf : ∀ b : Builder, b.strict = true → (f b).strict = true)
      (t : Workshop) (h : Steadfast w t) : Steadfast w (t.changeBuilder id f) := h.change (hf _)
  refine (preserves_liftM _).bind fun opener => Preserves.bind ?_ fun start => ?_
  · refine (preserves_read id _).bind fun b => preserves_ite (preserves_stop _) ?_
    refine Preserves.bind (change_steadfast ?_ id) fun _ => preserves_pure _
    exact fun _ hb => hb
  · have hcut : (body.onFault (cutBack id start)).Preserves (Steadfast w) :=
      hbody.onFault (hchange fun _ hb => hb)
    refine Preserves.bind (hcut.ensure (hchange fun _ hb => hb)) fun _ => change_steadfast ?_ id
    exact fun _ hb => hb

theorem takeOver_steadfast (id other : BuilderId) :
    (takeOver id other).Preserves (Steadfast w) := by
  refine (preserves_read other _).bind fun b => (preserves_read id _).bind fun q => ?_
  refine preserves_ite (preserves_stop _) ?_
  refine Preserves.bind (change_steadfast ?_ id) fun _ => ?_
  · exact fun _ hb => hb
  · exact (preserves_read other _).bind fun n => logged_steadfast _

/-- A builder on loan to a strict one is strict. -/
theorem strict_lent (hid : (w.builder id).strict = true)
    (hother : other < (w.lent id other).benches.length) :
    ((w.lent id other).builder other).strict = true := by
  have hclear : ((w.changeBuilder other Builder.clear).builder id).strict = true := by
    rcases builder_changeBuilder_cases other Builder.clear w id with he | ⟨rfl, he⟩
    · rwa [he]
    · rw [he]
      exact hid
  rw [lent, length_changeBuilder, length_changeBuilder] at hother
  rw [lent, builder_changeBuilder_self (by rwa [length_changeBuilder])]
  show (_ || _) = true
  rw [hclear, Bool.or_true]

theorem steadfast_lent (h : w.Loyal) (id other : BuilderId) : Steadfast w (w.lent id other) := by
  have hclear : Steadfast w (w.changeBuilder other Builder.clear) :=
    (Steadfast.refl h).change fun hb => hb
  refine hclear.change fun hb => ?_
  show (_ || _) = true
  rw [hb, Bool.true_or]

/-- A splice keeps builders strict if building does. -/
theorem splice_steadfast (hbuild : ∀ v id context, (build id context).Preserves (Steadfast v))
    (id other : BuilderId) (context : Value) :
    (splice build id other context).Preserves (Steadfast w) := by
  intro t h
  have hlent := steadfast_lent h.loyal id other
  have hbuilt := hbuild (t.lent id other) other context _ (.refl hlent.loyal)
  -- Giving back may only take away what the loan gave.
  have hback (u : Workshop) (hu : Steadfast (t.lent id other) u) : Steadfast w
      (u.changeBuilder other (giveBack ((t.changeBuilder other Builder.clear).builder other))) := by
    refine ⟨fun i hi => ?_, hu.loyal.change _ _⟩
    have hit := h.strict i hi
    have hiu := hu.strict i (hlent.strict i hit)
    by_cases hne : i = other
    · subst hne
      rw [builder_changeBuilder_self (lt_of_strict hiu), giveBack,
        builder_changeBuilder_self (lt_of_strict hit)]
      exact hit
    · rwa [builder_changeBuilder_of_ne u hne]
  rw [run_splice]
  rcases hr : (build other context).run (t.lent id other) with ⟨e | u, t'⟩
  · rw [hr] at hbuilt
    exact hback t' hbuilt
  · rw [hr] at hbuilt
    exact takeOver_steadfast id other _ (hback t' hbuilt)

end Workshop

/-! ### Programs and builds -/

open Workshop

variable {build : Building} {inner : Inquiry} {id : BuilderId} {context : Value}
  {w : Workshop}

mutual

/-- Whatever a loyal step does, strict builders stay strict. -/
theorem Step.run_steadfast
    (hb : ∀ v id context, (build id context).Preserves (Steadfast v)) :
    ∀ (s : Step) {id : BuilderId} {context : Value} {w : Workshop}, s.isLoyal = true →
      (s.run build id context).Preserves (Steadfast w)
  | .call c, id, context, w => by
      intro hs t h
      rw [Step.run, run_liftM_bind]
      cases hc : c.resolve context with
      | error e => exact h
      | ok c' =>
          have hne : ∀ v, c ≠ .setStrict v := by
            rintro v rfl
            cases hs
          exact call_steadfast id (Call.resolve_ne_setStrict hne context c' hc) t h
  | .block head body, id, context, w => by
      intro hs
      rw [Step.run]
      refine (preserves_liftM _).bind fun h => ?_
      exact (block_steadfast id h (Program.run_steadfast hb body hs)).bind fun _ =>
        preserves_pure _
  | .splice target c, id, context, w => by
      intro hs
      rw [Step.run]
      refine (find_steadfast hs).bind fun other => (preserves_liftM _).bind fun context' => ?_
      exact (splice_steadfast hb id other context').bind fun _ => preserves_pure _
  | .build c, id, context, w => by
      intro _
      rw [Step.run]
      exact (preserves_liftM _).bind fun context' => (hb w id context').bind fun _ =>
        preserves_pure _
  | .raise f, id, context, w => by
      intro _
      rw [Step.run]
      exact preserves_stop f
  | .attempt body, id, context, w => by
      intro hs
      rw [Step.run]
      refine (Program.run_steadfast hb body hs).attempt.bind fun r => ?_
      have hnote : (note r).Preserves (Steadfast w) := preserves_update fun t h => h.of_benches rfl
      exact hnote.bind fun _ => preserves_pure _
  | .on _ _, _, _, _ => nofun
  | .inspect target, id, context, w => by
      intro hs
      rw [Step.run]
      exact (find_steadfast hs).bind fun other => preserves_read other _
termination_by structural s => s

/-- So it is with loyal steps in order. -/
theorem Program.run_steadfast
    (hb : ∀ v id context, (build id context).Preserves (Steadfast v)) :
    ∀ (ss : List Step) {id : BuilderId} {context : Value} {w : Workshop},
      Program.isLoyal ss = true → (Program.run build id context ss).Preserves (Steadfast w)
  | [], id, context, w => by
      intro _
      rw [Program.run]
      exact preserves_pure ()
  | s :: ss, id, context, w => by
      intro hs
      rw [Program.isLoyal, Bool.and_eq_true] at hs
      rw [Program.run]
      exact (Step.run_steadfast hb s hs.1).bind fun _ => Program.run_steadfast hb ss hs.2
termination_by structural ss => ss

end

/-- Building keeps builders strict, to whatever depth builders build inside one another. -/
theorem Builder.build_steadfast (depth : Nat) :
    ∀ v id context, (Builder.build depth id context).Preserves (Steadfast v) := by
  induction depth with
  | zero => exact fun _ _ _ => preserves_stop _
  | succ depth ih =>
      intro v id context w h
      have hp : (Program.run (Builder.build depth) id context (w.bench id).program).Preserves
          (Steadfast v) := Program.run_steadfast ih _ (h.loyal id)
      rw [run_build]
      cases hk : (w.builder id).kind with
      | plain => exact h
      | setup => exact h.change (f := fun b => b.append b.setupCommands) fun hb => hb
      | teardown => exact h.change (f := (·.append teardownCommands)) fun hb => hb
      | query => exact addOwnQuery_steadfast id w h
      | script => exact hp w h
      | scriptQuery => exact hp.bind (fun _ => addOwnQuery_steadfast id) w h

/-! ## Unknown actions at any depth -/

/-- Whether a request asks for an unknown action and its fault is not caught. -/
def Request.Breaks (r : Request) : Prop := r.caught = false ∧ r.AsksUnknown

/-- Whether building a strict builder fails if an unknown action is asked for. -/
def Building.Refusing (build : Building) (inner : Inquiry) : Prop :=
  ∀ (id : BuilderId) (context : Value) (w : Workshop),
    (id < w.benches.length → (w.builder id).strict = true) → w.Loyal →
      ∀ r ∈ inner id context w, r.Breaks → (build id context).Fails w

namespace Workshop

/-- A block fails with its body. -/
theorem block_fails {h : BlockHead Value} {body : Op Workshop Unit}
    (hbody : ∀ opener, h.opener = .ok opener →
      (w.builder id).openConditions.any (·.same h.condition) = false →
        body.Fails (w.opened id h.condition opener)) : (block id h body).Fails w := by
  rcases run_block_cases id h body w with ⟨e, hr⟩ | ⟨opener, ho, hn, hr⟩
  · exact ⟨e, w, hr⟩
  · obtain ⟨e, t, hf⟩ := hbody opener ho hn
    rw [hf] at hr
    exact ⟨e, _, hr⟩

theorem splice_fails {other : BuilderId} (h : (build other context).Fails (w.lent id other)) :
    (splice build id other context).Fails w := by
  obtain ⟨e, t, h⟩ := h
  rw [Fails, run_splice, h]
  exact ⟨e, _, rfl⟩

/-- The body of a block runs where the block is open, if it does. -/
theorem of_run_openCondition {head : BlockHead Operand} {h : BlockHead Value} {v : Value}
    {t : Workshop} (hh : head.resolve context = .ok h)
    (hr : (Step.openCondition id context head).run w = (.ok v, t)) :
    ∃ opener, h.opener = .ok opener ∧
      (w.builder id).openConditions.any (·.same h.condition) = false ∧
        t = w.opened id h.condition opener := by
  rw [Step.openCondition, run_liftM_bind, hh] at hr
  dsimp only at hr
  rw [run_liftM_bind] at hr
  cases ho : h.opener with
  | error e =>
      rw [ho] at hr
      cases hr
  | ok opener =>
      rw [ho] at hr
      dsimp only at hr
      rw [run_bind, run_openBlock] at hr
      cases hn : (w.builder id).openConditions.any (·.same h.condition) with
      | true =>
          rw [hn] at hr
          cases hr
      | false =>
          rw [hn] at hr
          cases hr
          exact ⟨opener, rfl, rfl, rfl⟩

end Workshop

theorem Builder.not_breaks_ownRequests {b : Builder} {r : Request} (hr : r ∈ b.ownRequests) :
    ¬ r.Breaks := by
  rw [ownRequests] at hr
  split at hr
  · cases List.mem_singleton.mp hr
    rintro ⟨-, c, d, name, hc, hasks, -⟩
    cases hc
    cases hasks
  · cases hr

mutual

/-- A loyal step on a strict builder fails if an unknown action is asked for. -/
theorem Step.run_unknown
    (hs : ∀ v id context, (build id context).Preserves (Steadfast v))
    (hb : build.Refusing inner) : ∀ (s : Step) {id : BuilderId} {context : Value} {w : Workshop},
      s.isLoyal = true → (w.builder id).strict = true → w.Loyal →
        ∀ r ∈ s.requests build inner id context w, r.Breaks → (s.run build id context).Fails w
  | .call c, id, context, w => by
      intro _ hid _ r hr hbreaks
      rw [Step.requests] at hr
      obtain ⟨c', hc, hr⟩ := mem_follow_liftM hr
      cases List.mem_singleton.mp hr
      obtain ⟨-, c'', d, name, he, hasks, hnone⟩ := hbreaks
      cases he
      rw [Step.run, hc]
      have happly := Builder.apply_fails hid hasks hnone w.journal
      obtain ⟨e, j, happly⟩ := happly
      have hrun := run_call id c' w
      rw [happly] at hrun
      exact ⟨e, _, hrun⟩
  | .block head body, id, context, w => by
      intro hl hid hw r hr hbreaks
      rw [Step.isLoyal] at hl
      rw [Step.requests] at hr
      obtain ⟨h, hh, hr⟩ := mem_follow_liftM hr
      rw [Step.run]
      refine fails_liftM_bind fun h' hh' => Fails.bind (Workshop.block_fails fun opener ho hn => ?_)
      cases hh.symm.trans hh'
      rcases List.mem_cons.mp hr with rfl | hr
      · obtain ⟨-, c, d, name, he, -⟩ := hbreaks
        cases he
      · obtain ⟨v, t, hopen, hr⟩ := mem_follow hr
        obtain ⟨opener', ho', -, rfl⟩ := Workshop.of_run_openCondition hh hopen
        cases ho.symm.trans ho'
        have hopened : Steadfast w (w.opened id h.condition opener) :=
          (Steadfast.refl hw).change fun hb => hb
        exact Program.run_unknown hs hb body hl (hopened.strict id hid) hopened.loyal r hr hbreaks
  | .splice target c, id, context, w => by
      intro hl hid hw r hr hbreaks
      rw [Step.isLoyal] at hl
      rw [Step.requests] at hr
      obtain ⟨other, t, hfind, hr⟩ := mem_follow hr
      obtain ⟨context', hc, hr⟩ := mem_follow_liftM hr
      have ht : Steadfast w t := by
        have hfound := Workshop.find_steadfast hl w (.refl hw)
        rwa [hfind] at hfound
      have hlent := Workshop.steadfast_lent ht.loyal id other
      rw [Step.run, Fails, run_bind_ok hfind]
      refine fails_liftM_bind fun c' hc' => Fails.bind (Workshop.splice_fails ?_)
      cases hc.symm.trans hc'
      exact hb other context' _ (Workshop.strict_lent (ht.strict id hid)) hlent.loyal r hr hbreaks
  | .build c, id, context, w => by
      intro _ hid hw r hr hbreaks
      rw [Step.requests] at hr
      obtain ⟨context', hc, hr⟩ := mem_follow_liftM hr
      rw [Step.run]
      refine fails_liftM_bind fun c' hc' => Fails.bind ?_
      cases hc.symm.trans hc'
      exact hb id context' w (fun _ => hid) hw r hr hbreaks
  | .raise f, _, _, _ => by
      intro _ _ _ r hr
      cases hr
  | .attempt body, id, context, w => by
      intro _ _ _ r hr hbreaks
      rw [Step.requests] at hr
      obtain ⟨r', -, rfl⟩ := List.mem_map.mp hr
      cases hbreaks.1
  | .on _ _, _, _, _ => nofun
  | .inspect _, _, _, _ => by
      intro _ _ _ r hr
      cases hr
termination_by structural s => s

/-- So do loyal steps in order. -/
theorem Program.run_unknown
    (hs : ∀ v id context, (build id context).Preserves (Steadfast v))
    (hb : build.Refusing inner) :
    ∀ (ss : List Step) {id : BuilderId} {context : Value} {w : Workshop},
      Program.isLoyal ss = true → (w.builder id).strict = true → w.Loyal →
        ∀ r ∈ Program.requests build inner id context ss w, r.Breaks →
          (Program.run build id context ss).Fails w
  | [], _, _, _ => by
      intro _ _ _ r hr
      cases hr
  | s :: ss, id, context, w => by
      intro hl hid hw r hr hbreaks
      rw [Program.isLoyal, Bool.and_eq_true] at hl
      rw [Program.requests] at hr
      rw [Program.run]
      rcases List.mem_append.mp hr with hr | hr
      · exact (Step.run_unknown hs hb s hl.1 hid hw r hr hbreaks).bind
      · obtain ⟨u, t, hrun, hr⟩ := mem_follow hr
        have ht : Steadfast w t := by
          have hkept : Steadfast w ((s.run build id context).run w).2 :=
            Step.run_steadfast hs s hl.1 w (.refl hw)
          rwa [hrun] at hkept
        rw [Fails, run_bind_ok hrun]
        exact Program.run_unknown hs hb ss hl.2 (ht.strict id hid) ht.loyal r hr hbreaks
termination_by structural ss => ss

end

/-- Building a strict builder fails if an unknown action is asked for, at whatever depth. -/
theorem Builder.build_unknown (depth : Nat) :
    (Builder.build depth).Refusing (Builder.requests depth) := by
  induction depth with
  | zero => exact fun _ _ _ _ _ r hr => nomatch hr
  | succ depth ih =>
      intro id context w hid hw r hr hbreaks
      -- A place without a builder has nothing to build.
      have hstrict (hkind : (w.builder id).kind ≠ .plain) : (w.builder id).strict = true := by
        refine hid (Nat.lt_of_not_le fun hle => hkind ?_)
        rw [Workshop.builder_of_length_le hle]
      have hp (hkind : (w.builder id).kind ≠ .plain) (hr : r ∈ Program.requests
          (Builder.build depth) (Builder.requests depth) id context (w.bench id).program w) :
          (Program.run (Builder.build depth) id context (w.bench id).program).Fails w :=
        Program.run_unknown (Builder.build_steadfast depth) ih _ (hw id) (hstrict hkind) hw r hr
          hbreaks
      rw [Builder.requests] at hr
      rw [Fails, run_build]
      cases hk : (w.builder id).kind with
      | script =>
          rw [hk] at hr
          exact hp (hk ▸ nofun) hr
      | scriptQuery =>
          rw [hk] at hr
          rcases List.mem_append.mp hr with hr | hr
          · exact (hp (hk ▸ nofun) hr).bind
          · obtain ⟨u, t, hrun, hr⟩ := mem_follow hr
            exact absurd hbreaks (not_breaks_ownRequests hr)
      | query =>
          rw [hk] at hr
          exact absurd hbreaks (not_breaks_ownRequests hr)
      | _ =>
          rw [hk] at hr
          cases hr

end Cockpit
