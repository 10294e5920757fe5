import Cockpit.Proofs.Builder.Spares
import Cockpit.Proofs.Blocks.Runs

/-!
# What happens in a run

The events of a run are the calls that it makes on builders and the splices that it does, at
whatever depth.  They are computed along the run, since what a program does depends on the
builders that it finds and on the faults that it catches.  Looking at a builder is no event,
and neither is a block that does not open.

A `Splicing` is one splice with the workshops before and after it.  `Splicing.Sound` says that
the other builder has its conditions and its strictness back, and that the splice was all or
nothing for the builder that takes the commands, unless calls were made on that one meanwhile.

`Workshop.Accounts` ties the events of a run to what became of the workshop: only builders on
which calls were made have changed, and every splice was sound.
-/

namespace Cockpit

/-- What happens after an operation, if it gives a result. -/
def Op.follow {σ α β : Type} (x : Op σ α) (s : σ) (f : α → σ → List β) : List β :=
  match x.run s with
  | (.ok a, t) => f a t
  | (.error _, _) => []

namespace Op

variable {σ α β : Type} {x : Op σ α} {s t : σ} {f : α → σ → List β}

theorem follow_ok {a : α} (hx : x.run s = (.ok a, t)) : x.follow s f = f a t := by
  rw [follow, hx]

theorem follow_error {e : Fault} (hx : x.run s = (.error e, t)) : x.follow s f = [] := by
  rw [follow, hx]

end Op

namespace Workshop

open Op

/-! ## Events -/

/-- One splice. -/
structure Splicing where
  /-- The builder that takes the commands over. -/
  taker : BuilderId
  /-- The builder that builds. -/
  other : BuilderId
  before : Workshop
  after : Workshop
  outcome : Except Fault Unit
  /-- The builders that calls were made on while the other one built. -/
  touched : List BuilderId

/-- Something that happens in a run. -/
inductive Event where
  /-- A call is made on a builder, it opens a block, or it builds. -/
  | called (id : BuilderId)
  | spliced (s : Splicing)

/-- The builders that calls are made on. -/
def called (es : List Event) : List BuilderId :=
  es.filterMap fun
    | .called id => some id
    | .spliced _ => none

/-- The splices among some events. -/
def splicings (es : List Event) : List Splicing :=
  es.filterMap fun
    | .called _ => none
    | .spliced s => some s

@[simp] theorem called_append (es es' : List Event) :
    called (es ++ es') = called es ++ called es' := List.filterMap_append

@[simp] theorem splicings_append (es es' : List Event) :
    splicings (es ++ es') = splicings es ++ splicings es' := List.filterMap_append

/-- What happens while a builder builds in a context and a workshop. -/
abbrev Chronicle := BuilderId → Value → Workshop → List Event

/-- A splice as it goes in a workshop. -/
def Splicing.of (build : Building) (inner : Chronicle) (id other : BuilderId) (context : Value)
    (w : Workshop) : Splicing :=
  let r := (splice build id other context).run w
  { taker := id
    other := other
    before := w
    after := r.2
    outcome := r.1
    touched := called (inner other context (w.lent id other)) }

/-- What happens in a splice: both builders are called, and the other one builds on loan. -/
def spliceEvents (build : Building) (inner : Chronicle) (id other : BuilderId) (context : Value)
    (w : Workshop) : List Event :=
  .called id :: .called other :: .spliced (.of build inner id other context w) ::
    inner other context (w.lent id other)

end Workshop

open Workshop (Event Chronicle)

mutual

/-- What happens in a step on a builder. -/
def Step.events (build : Building) (inner : Chronicle) (id : BuilderId) (context : Value) :
    Step → Workshop → List Event
  | .call c, w => (liftM (c.resolve context) : Op Workshop _).follow w fun _ _ => [.called id]
  | .block head body, w =>
    (Step.openCondition id context head).follow w fun _ w =>
      .called id :: Program.events build inner id context body w
  | .splice target c, w =>
    (Workshop.find target).follow w fun other w =>
      (liftM (c.resolve context) : Op Workshop _).follow w fun context w =>
        Workshop.spliceEvents build inner id other context w
  | .build c, w =>
    (liftM (c.resolve context) : Op Workshop _).follow w fun context w => inner id context w
  | .raise _, _ => []
  | .attempt body, w => Program.events build inner id context body w
  | .on target step, w =>
    (Workshop.find target).follow w fun other w => Step.events build inner other context step w
  | .inspect _, _ => []
termination_by structural s => s

/-- What happens in steps in order. -/
def Program.events (build : Building) (inner : Chronicle) (id : BuilderId) (context : Value) :
    List Step → Workshop → List Event
  | [], _ => []
  | s :: ss, w =>
    Step.events build inner id context s w ++
      (Step.run build id context s).follow w fun _ w => Program.events build inner id context ss w
termination_by structural ss => ss

end

/-- What happens while a builder builds, where builders may build inside one another to a
depth. -/
def Builder.events : (depth : Nat) → Chronicle
  | 0, _, _, _ => []
  | depth + 1, id, context, w =>
    .called id ::
      match (w.builder id).kind with
      | .script | .scriptQuery =>
        Program.events (Builder.build depth) (Builder.events depth) id context
          (w.bench id).program w
      | _ => []

namespace Workshop

open Op

variable {w w' w'' : Workshop} {id other : BuilderId} {es es' : List Event}

/-! ## Sound splices -/

namespace Splicing

/-- Whether the other builder has its open conditions and its strictness back. -/
structure Restores (s : Splicing) : Prop where
  conditions : (s.after.builder s.other).openConditions = (s.before.builder s.other).openConditions
  strict : (s.after.builder s.other).strict = (s.before.builder s.other).strict

/-- Whether the builder that takes the commands is another one, and no call was made on it
while they were built. -/
structure IsApart (s : Splicing) : Prop where
  ne : s.taker ≠ s.other
  untouched : s.taker ∉ s.touched

/-- Whether the builder that takes the commands is as it was after a fault, and has got exactly
the commands of the other one after a result. -/
def AllOrNothing (s : Splicing) : Prop :=
  match s.outcome with
  | .error _ => s.after.builder s.taker = s.before.builder s.taker
  | .ok _ =>
    s.after.builder s.taker = (s.before.builder s.taker).append (s.after.builder s.other).stream

/-- Whether a splice gives back what it borrowed, and is all or nothing if it may be. -/
structure Sound (s : Splicing) : Prop where
  restores : s.Restores
  allOrNothing : s.IsApart → s.AllOrNothing

end Splicing

/-! ## What events account for -/

/-- Whether some events account for what became of a workshop. -/
structure Accounts (es : List Event) (w w' : Workshop) : Prop where
  extended : Extends w w'
  untouched : ∀ i < w.benches.length, i ∉ called es → w'.builder i = w.builder i
  sound : ∀ s ∈ splicings es, s.Sound

theorem Accounts.of_eq (hx : Extends w w')
    (hb : ∀ i < w.benches.length, w'.builder i = w.builder i) : Accounts [] w w' where
  extended := hx
  untouched i hi _ := hb i hi
  sound _ h := absurd h List.not_mem_nil

theorem Accounts.refl (w : Workshop) : Accounts [] w w := .of_eq (.refl w) fun _ _ => rfl

/-- A change of one builder is accounted for by a call on it. -/
theorem Accounts.call (hx : Extends w w') (hb : ∀ i, i ≠ id → w'.builder i = w.builder i) :
    Accounts [.called id] w w' where
  extended := hx
  untouched i _ hn := hb i (List.ne_of_not_mem_cons hn)
  sound _ h := absurd h List.not_mem_nil

theorem Accounts.trans (h : Accounts es w w') (h' : Accounts es' w' w'') :
    Accounts (es ++ es') w w'' where
  extended := h.extended.trans h'.extended
  untouched i hi hn := by
    rw [called_append, List.mem_append, not_or] at hn
    rw [h'.untouched i (Nat.lt_of_lt_of_le hi h.extended.grows) hn.2, h.untouched i hi hn.1]
  sound s hs := by
    rw [splicings_append] at hs
    rcases List.mem_append.mp hs with hs | hs
    · exact h.sound s hs
    · exact h'.sound s hs

/-- A call on a builder accounts for further changes of it. -/
theorem Accounts.again (h : Accounts es w w') (hid : id ∈ called es) (hx : Extends w' w'')
    (hb : ∀ i < w'.benches.length, i ≠ id → w''.builder i = w'.builder i) :
    Accounts es w w'' where
  extended := h.extended.trans hx
  untouched i hi hn := by
    have hne : i ≠ id := fun he => hn (he ▸ hid)
    rw [hb i (Nat.lt_of_lt_of_le hi h.extended.grows) hne, h.untouched i hi hn]
  sound := h.sound

theorem Accounts.change (h : Accounts es w w') (hid : id ∈ called es) (f : Builder → Builder) :
    Accounts es w (w'.changeBuilder id f) :=
  h.again hid (extends_changeBuilder id f w') fun _ _ hi => builder_changeBuilder_of_ne w' hi f

/-- One more call accounts for no less. -/
theorem Accounts.cons (h : Accounts es w w') (id : BuilderId) :
    Accounts (.called id :: es) w w' where
  extended := h.extended
  untouched i hi hn := h.untouched i hi fun hmem => hn (List.mem_cons_of_mem id hmem)
  sound := h.sound

/-- The rest of a sequence adds its events if it runs. -/
theorem Accounts.bind {α β : Type} {x : Op Workshop α} {f : α → Op Workshop β}
    {g : α → Workshop → List Event} (hx : Accounts es w (x.run w).2)
    (hf : ∀ a w', x.run w = (.ok a, w') → Accounts (g a w') w' ((f a).run w').2) :
    Accounts (es ++ x.follow w g) w ((x >>= f).run w).2 := by
  rcases hr : x.run w with ⟨e | a, w'⟩
  · rw [hr] at hx
    rw [run_bind_error hr, follow_error hr, List.append_nil]
    exact hx
  · rw [hr] at hx
    rw [run_bind_ok hr, follow_ok hr]
    exact hx.trans (hf a w' hr)

/-- If nothing happens in the first part, the events of a sequence are those of the rest. -/
theorem Accounts.bind_of_quiet {α β : Type} {x : Op Workshop α} {f : α → Op Workshop β}
    {g : α → Workshop → List Event} (hx : Accounts [] w (x.run w).2)
    (hf : ∀ a w', x.run w = (.ok a, w') → Accounts (g a w') w' ((f a).run w').2) :
    Accounts (x.follow w g) w ((x >>= f).run w).2 := hx.bind hf

/-- Reading operands is no event. -/
theorem Accounts.bind_liftM {α β : Type} {x : Except Fault α} {f : α → Op Workshop β}
    {g : α → Workshop → List Event}
    (hf : ∀ a, x = .ok a → Accounts (g a w) w ((f a).run w).2) :
    Accounts ((liftM x : Op Workshop α).follow w g) w
      (((liftM x : Op Workshop α) >>= f).run w).2 := by
  refine .bind_of_quiet (.refl w) fun a w' hr => ?_
  obtain ⟨ha, rfl⟩ : x = .ok a ∧ w = w' := Prod.mk.inj hr
  exact hf a ha

end Workshop

end Cockpit
