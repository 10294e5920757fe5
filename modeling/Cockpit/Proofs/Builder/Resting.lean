import Cockpit.Proofs.Builder.AllOrNothing

/-!
# What a run leaves behind

A run pushes conditions on builders and pops them, lends its strictness and takes it back.
Between two calls on a builder nothing of that is left on it, however the calls ended: it has
the commands that were appended to it, and is otherwise as it was made.

The `Touch`es of a run are computed along it.  They say where each of its steps stands, which
builders are spliced or reached for, and which have their strictness set.  `Workshop.Unmarked`
compares two workshops, and leaves out the streams and the builders on which calls are in progress.

`Program.run_tidies` is the main statement.  A run that sets no strictness leaves the workshop
unmarked when it ends, and wherever one of its steps stands, it is unmarked but for the builders
on which calls are in progress there.
-/

namespace Cockpit

open Op

namespace Workshop

/-! ## Touches -/

/-- A place in a run: the builders on which calls are in progress, and the workshop. -/
structure Standing where
  busy : List BuilderId
  workshop : Workshop

/-- What a run does that other builders may notice. -/
inductive Touch where
  /-- A step is about to run. -/
  | stands (s : Standing)
  /-- The strictness of a builder is set. -/
  | sets (id : BuilderId)
  /-- A step goes over to a builder, or looks at it, while calls on some builders are in
  progress. -/
  | reaches (busy : List BuilderId) (other : BuilderId)
  /-- A builder is spliced while calls on some builders are in progress, by one that is strict or
  not. -/
  | splices (busy : List BuilderId) (other : BuilderId) (strict : Bool)
  /-- Builders build too deep inside one another. -/
  | tooDeep

namespace Touch

/-- Whether a touch sets a strictness. -/
def isSetting : Touch → Bool
  | .sets _ => true
  | _ => false

/-- Whether a touch is that of building too deep. -/
def isTooDeep : Touch → Bool
  | .tooDeep => true
  | _ => false

end Touch

/-- The touches while a builder builds in a context and a workshop, where calls on some builders
are in progress. -/
abbrev Diary := List BuilderId → BuilderId → Value → Workshop → List Touch

end Workshop

open Workshop (Touch Diary)

/-- The touches of a call on a builder. -/
def Call.touches (id : BuilderId) : Call Value → List Touch
  | .setStrict _ => [.sets id]
  | _ => []

mutual

/-- The touches of a step on a builder. -/
def Step.touches (build : Building) (inner : Diary) (busy : List BuilderId) (id : BuilderId)
    (context : Value) : Step → Workshop → List Touch
  | .call c, w =>
    (liftM (c.resolve context) : Op Workshop _).follow w fun c _ => c.touches id
  | .block head body, w =>
    (Step.openCondition id context head).follow w fun _ w =>
      Program.touches build inner busy id context body w
  | .splice target c, w =>
    (Workshop.find target).follow w fun other w =>
      (liftM (c.resolve context) : Op Workshop _).follow w fun context w =>
        .splices busy other (w.builder id).strict ::
          inner (other :: busy) other context (w.lent id other)
  | .build c, w =>
    (liftM (c.resolve context) : Op Workshop _).follow w fun context w => inner busy id context w
  | .raise _, _ => []
  | .attempt body, w => Program.touches build inner busy id context body w
  | .on target step, w =>
    (Workshop.find target).follow w fun other w =>
      .reaches busy other :: Step.touches build inner (other :: busy) other context step w
  | .inspect target, w =>
    (Workshop.find target).follow w fun other _ => [.reaches busy other]
termination_by structural s => s

/-- The touches of steps in order. -/
def Program.touches (build : Building) (inner : Diary) (busy : List BuilderId) (id : BuilderId)
    (context : Value) : List Step → Workshop → List Touch
  | [], _ => []
  | s :: ss, w =>
    .stands ⟨busy, w⟩ :: (Step.touches build inner busy id context s w ++
      (Step.run build id context s).follow w fun _ w =>
        Program.touches build inner busy id context ss w)
termination_by structural ss => ss

end

/-- The touches while a builder builds, where builders may build inside one another to a depth. -/
def Builder.touches : (depth : Nat) → Diary
  | 0, _, _, _, _ => [.tooDeep]
  | depth + 1, busy, id, context, w =>
    match (w.builder id).kind with
    | .script | .scriptQuery =>
      Program.touches (Builder.build depth) (Builder.touches depth) busy id context
        (w.bench id).program w
    | _ => []

/-! ## Unmarked workshops -/

/-- What a builder was made with, and whether it has a bridge. -/
def Builder.bare (b : Builder) : Builder := { b.clear with openConditions := [], strict := false }

theorem Builder.bare_of_clear {b c : Builder} (h : b.clear = c.clear) : b.bare = c.bare :=
  congrArg (fun b : Builder => { b with openConditions := [], strict := false }) h

namespace Workshop

variable {w t u : Workshop} {id other : BuilderId} {context : Value} {busy more : List BuilderId}
  {f g : Builder → Builder} {ts ss : List Touch} {touch : Touch}

/-- Whether nothing of a workshop has changed in another one but the streams of builders, and the
open conditions and the strictness of those on which calls are in progress.  There may be more
builders, records and notes. -/
structure Unmarked (busy : List BuilderId) (w t : Workshop) : Prop where
  extended : Extends w t
  airframe : t.airframe = w.airframe
  builders : ∀ i < w.benches.length, i ∉ busy → (t.builder i).clear = (w.builder i).clear
  bare : ∀ i < w.benches.length, (t.builder i).bare = (w.builder i).bare

theorem Unmarked.refl (busy : List BuilderId) (w : Workshop) : Unmarked busy w w :=
  ⟨.refl w, rfl, fun _ _ _ => rfl, fun _ _ => rfl⟩

theorem Unmarked.trans (h : Unmarked busy w t) (h' : Unmarked busy t u) : Unmarked busy w u where
  extended := h.extended.trans h'.extended
  airframe := h'.airframe.trans h.airframe
  builders i hi hn :=
    (h'.builders i (Nat.lt_of_lt_of_le hi h.extended.grows) hn).trans (h.builders i hi hn)
  bare i hi := (h'.bare i (Nat.lt_of_lt_of_le hi h.extended.grows)).trans (h.bare i hi)

theorem Unmarked.mono (h : Unmarked busy w t) (hm : busy ⊆ more) : Unmarked more w t where
  extended := h.extended
  airframe := h.airframe
  builders i hi hn := h.builders i hi fun hin => hn (hm hin)
  bare := h.bare

/-- A workshop in which all builders are alike but for their streams is unmarked. -/
theorem unmarked_of_clear (hx : Extends w t) (ha : t.airframe = w.airframe)
    (hb : ∀ i < w.benches.length, (t.builder i).clear = (w.builder i).clear) :
    Unmarked busy w t :=
  ⟨hx, ha, fun i hi _ => hb i hi, fun i hi => Builder.bare_of_clear (hb i hi)⟩

/-- Records and notes leave no mark. -/
theorem unmarked_of_benches {c : List (Option Fault)} {j : Log.Journal} :
    Unmarked busy w { w with caught := c, journal := j } :=
  unmarked_of_clear ⟨rfl, Nat.le_refl _, fun _ _ => rfl⟩ rfl fun _ _ => rfl

theorem unmarked_withBench (n : Bench) (w : Workshop) : Unmarked busy w (w.withBench n) :=
  unmarked_of_clear (extends_withBench n w) rfl fun i hi => by rw [builder_withBench_of_lt n hi]

/-- A change of the stream of a builder leaves no mark. -/
theorem unmarked_change (hf : (f (w.builder id)).clear = (w.builder id).clear) :
    Unmarked busy w (w.changeBuilder id f) := by
  refine unmarked_of_clear (extends_changeBuilder id f w) rfl fun i _ => ?_
  rcases builder_changeBuilder_cases id f w i with he | ⟨rfl, he⟩
  · rw [he]
  · rw [he, hf]

theorem unmarked_append (id : BuilderId) (cs : Stream) (w : Workshop) :
    Unmarked busy w (w.changeBuilder id (·.append cs)) := unmarked_change rfl

/-- A change of a builder on which a call is in progress leaves no mark, unless it makes another
builder of it. -/
theorem unmarked_change_of_mem (hid : id ∈ busy)
    (hf : (f (w.builder id)).bare = (w.builder id).bare) :
    Unmarked busy w (w.changeBuilder id f) where
  extended := extends_changeBuilder id f w
  airframe := rfl
  builders i _ hi := by
    have hne : i ≠ id := fun he => hi (he ▸ hid)
    rw [builder_changeBuilder_of_ne w hne]
  bare i _ := by
    rcases builder_changeBuilder_cases id f w i with he | ⟨rfl, he⟩
    · rw [he]
    · rw [he, hf]

/-- What a builder got before a run is no mark if it is taken back after it. -/
theorem Unmarked.takeBack (h : Unmarked [] (w.changeBuilder id f) t)
    (hg : ∀ b : Builder, b.clear = (f (w.builder id)).clear →
      (g b).clear = (w.builder id).clear) : Unmarked [] w (t.changeBuilder id g) := by
  have hx := (extends_changeBuilder id f w).trans h.extended
  refine unmarked_of_clear (hx.trans (extends_changeBuilder ..)) h.airframe fun i hi => ?_
  have hlen : i < (w.changeBuilder id f).benches.length := by rwa [length_changeBuilder]
  have hclear := h.builders i hlen List.not_mem_nil
  by_cases he : i = id
  · subst he
    rw [builder_changeBuilder_self hi] at hclear
    rw [builder_changeBuilder_self (Nat.lt_of_lt_of_le hi hx.grows)]
    exact hg _ hclear
  · rw [builder_changeBuilder_of_ne w he] at hclear
    rwa [builder_changeBuilder_of_ne t he]

theorem unmarked_lent (hother : other ∈ busy) (id : BuilderId) (w : Workshop) :
    Unmarked busy w (w.lent id other) :=
  (unmarked_change_of_mem hother rfl).trans (unmarked_change_of_mem hother rfl)

/-! ## Tidy runs -/

/-- Whether a run leaves no mark, and at each place where a step stands only on builders on which
calls are in progress there. -/
structure Tidy (busy : List BuilderId) (ts : List Touch) (w t : Workshop) : Prop where
  unmarked : Unmarked [] w t
  stands : ∀ s : Standing, Touch.stands s ∈ ts →
    busy ⊆ s.busy ∧ Unmarked s.busy w s.workshop

/-- Whether a run with some touches is tidy unless it sets a strictness. -/
def Tidies (busy : List BuilderId) (ts : List Touch) (w t : Workshop) : Prop :=
  (∀ touch ∈ ts, touch.isSetting = false) → Tidy busy ts w t

/-- A run in which no step stands. -/
theorem tidies_nil (h : Unmarked [] w t) : Tidies busy [] w t := fun _ =>
  ⟨h, fun _ hs => absurd hs List.not_mem_nil⟩

/-- A run in which no step stands, whatever its touches. -/
theorem tidies_of_ne (h : Unmarked [] w t) (ht : ∀ s, Touch.stands s ∉ ts) :
    Tidies busy ts w t := fun _ => ⟨h, fun s hs => absurd hs (ht s)⟩

theorem Tidies.mono (h : Tidies more ts w t) (hm : busy ⊆ more) : Tidies busy ts w t := fun hs =>
  ⟨(h hs).unmarked, fun s hin =>
    ⟨fun _ hi => ((h hs).stands s hin).1 (hm hi), ((h hs).stands s hin).2⟩⟩

theorem Tidies.cons (h : Tidies busy ts w t) (ht : ∀ s, touch ≠ .stands s) :
    Tidies busy (touch :: ts) w t := by
  intro hs
  have htidy := h fun touch hin => hs touch (List.mem_cons_of_mem _ hin)
  refine ⟨htidy.unmarked, fun s hin => ?_⟩
  rcases List.mem_cons.mp hin with he | hin
  · exact absurd he.symm (ht s)
  · exact htidy.stands s hin

/-- Where a run starts, nothing is marked. -/
theorem Tidies.stand (h : Tidies busy ts w t) : Tidies busy (.stands ⟨busy, w⟩ :: ts) w t := by
  intro hs
  have htidy := h fun touch hin => hs touch (List.mem_cons_of_mem _ hin)
  refine ⟨htidy.unmarked, fun s hin => ?_⟩
  rcases List.mem_cons.mp hin with he | hin
  · obtain rfl := Touch.stands.inj he
    exact ⟨fun _ hi => hi, .refl _ _⟩
  · exact htidy.stands s hin

theorem Tidies.append (h : Tidies busy ts w t) (h' : Tidies busy ss t u) :
    Tidies busy (ts ++ ss) w u := by
  intro hs
  have ht := h fun touch hin => hs touch (List.mem_append_left _ hin)
  have ht' := h' fun touch hin => hs touch (List.mem_append_right _ hin)
  refine ⟨ht.unmarked.trans ht'.unmarked, fun s hin => ?_⟩
  rcases List.mem_append.mp hin with hin | hin
  · exact ht.stands s hin
  · obtain ⟨hbusy, hmarks⟩ := ht'.stands s hin
    exact ⟨hbusy, (ht.unmarked.mono (List.nil_subset _)).trans hmarks⟩

/-- A sequence is tidy if its first part is, and so is the rest wherever that ends. -/
theorem Tidies.bind {α β : Type} {x : Op Workshop α} {f : α → Op Workshop β}
    {h : α → Workshop → List Touch} (hx : Tidies busy ts w (x.run w).2)
    (hf : ∀ a t, x.run w = (.ok a, t) → Tidies busy (h a t) t ((f a).run t).2) :
    Tidies busy (ts ++ x.follow w h) w ((x >>= f).run w).2 := by
  rcases hr : x.run w with ⟨e | a, t⟩
  · rw [hr] at hx
    rw [run_bind_error hr, follow_error hr, List.append_nil]
    exact hx
  · rw [hr] at hx
    rw [run_bind_ok hr, follow_ok hr]
    exact hx.append (hf a t hr)

/-- If no step stands in the first part, the touches of a sequence are those of the rest. -/
theorem Tidies.bind_of_quiet {α β : Type} {x : Op Workshop α} {f : α → Op Workshop β}
    {h : α → Workshop → List Touch} (hx : Unmarked [] w (x.run w).2)
    (hf : ∀ a t, x.run w = (.ok a, t) → Tidies busy (h a t) t ((f a).run t).2) :
    Tidies busy (x.follow w h) w ((x >>= f).run w).2 := (tidies_nil hx).bind hf

/-- Reading operands touches nothing. -/
theorem Tidies.bind_liftM {α β : Type} {x : Except Fault α} {f : α → Op Workshop β}
    {h : α → Workshop → List Touch} (hf : ∀ a, Tidies busy (h a w) w ((f a).run w).2) :
    Tidies busy ((liftM x : Op Workshop α).follow w h) w
      (((liftM x : Op Workshop α) >>= f).run w).2 := by
  refine .bind_of_quiet (.refl _ w) fun a t hr => ?_
  obtain rfl : w = t := (Prod.mk.inj hr).2
  exact hf a

/-! ### Calls, targets, blocks and splices -/

theorem call_tidies (id : BuilderId) (c : Call Value) (w : Workshop) :
    Tidies busy (c.touches id) w ((call id c).run w).2 := by
  intro hs
  have hc : ∀ v, c ≠ .setStrict v := by
    rintro v rfl
    cases hs (.sets id) List.mem_cons_self
  have hmarks : Unmarked [] w ((call id c).run w).2 := by
    rw [run_call]
    rcases hr : ((w.builder id).apply c).run w.journal with ⟨e | ⟨b, r⟩, j⟩
    · exact unmarked_of_benches
    · have hclear : b.clear = (w.builder id).clear := by
        rcases Builder.apply_cases hr with
          ⟨-, rfl⟩ | ⟨n, s, -, -, rfl⟩ | ⟨v, rfl, -⟩ | ⟨cs, -, rfl⟩
        · rfl
        · rfl
        · exact absurd rfl (hc v)
        · rfl
      have hset : Unmarked [] w (w.changeBuilder id fun _ => b) := unmarked_change hclear
      exact hset.trans unmarked_of_benches
  refine tidies_of_ne hmarks (fun s hin => ?_) hs
  cases c <;> simp [Call.touches] at hin

theorem addOwnQuery_unmarked (id : BuilderId) (w : Workshop) :
    Unmarked [] w ((addOwnQuery id).run w).2 := by
  rw [addOwnQuery, read, bind_assoc, run_state_bind, pure_bind, run_liftM_bind]
  cases hq : (w.builder id).addOwnQuery with
  | error e => exact .refl _ w
  | ok b =>
      obtain ⟨-, xs, rfl⟩ := Builder.addOwnQuery_eq_ok hq
      exact unmarked_append id [.query (w.builder id).fn xs] w

theorem find_unmarked (target : Target) (w : Workshop) :
    Unmarked [] w ((find target).run w).2 := by
  rcases find_cases target w with ⟨e, hf⟩ | ⟨n, id, -, hf⟩ | ⟨b, -, -, hf⟩
  · rw [hf]
    exact .refl _ w
  · rw [hf]
    exact .refl _ w
  · rw [hf]
    exact unmarked_withBench b w

/-- A block pops what it has pushed, whatever became of its body. -/
theorem block_tidies {h : BlockHead Value} {body : Op Workshop Unit} {opener : Command}
    (hid : id ∈ busy) (ho : h.opener = .ok opener)
    (hn : (w.builder id).openConditions.any (·.same h.condition) = false)
    (hbody : Tidies busy ts (w.opened id h.condition opener)
      (body.run (w.opened id h.condition opener)).2) :
    Tidies busy ts w ((block id h body).run w).2 := by
  intro hs
  obtain ⟨hmarks, hstands⟩ := hbody hs
  constructor
  · have hpop {t : Workshop} (ht : Unmarked [] (w.opened id h.condition opener) t) :
        Unmarked [] w (dropCondition id t) := by
      refine ht.takeBack fun b hb => ?_
      have hconditions : b.openConditions = (w.builder id).openConditions ++ [h.condition] :=
        congrArg Builder.openConditions hb
      have hrest : { b.clear with openConditions := (w.builder id).openConditions } =
          (w.builder id).clear :=
        congrArg (fun b : Builder => { b with openConditions := (w.builder id).openConditions }) hb
      rw [← hrest, Builder.clear, hconditions, List.dropLast_concat]
      rfl
    rw [run_block body ho hn]
    rcases hr : body.run (w.opened id h.condition opener) with ⟨e | u, t⟩
    · rw [hr] at hmarks
      exact hpop (hmarks.trans (unmarked_change rfl))
    · rw [hr] at hmarks
      exact (hpop hmarks).trans (unmarked_append id [h.closer] _)
  · intro s hin
    obtain ⟨hbusy, hmarks⟩ := hstands s hin
    exact ⟨hbusy, (unmarked_change_of_mem (hbusy hid) rfl).trans hmarks⟩

/-- A splice takes back what it has lent, whatever became of the build. -/
theorem splice_tidies {build : Building} {strict : Bool}
    (hbuild : Tidies (other :: busy) ts (w.lent id other)
      ((build other context).run (w.lent id other)).2) :
    Tidies busy (.splices busy other strict :: ts) w
      ((splice build id other context).run w).2 := by
  refine Tidies.cons (fun hs => ?_) nofun
  obtain ⟨hmarks, hstands⟩ := hbuild hs
  have hback : Unmarked [] w (w.givenBack build id other context) := by
    have hcleared : Unmarked [] w (w.changeBuilder other Builder.clear) := unmarked_change rfl
    refine hcleared.trans (hmarks.takeBack fun b hb => ?_)
    let before := (w.changeBuilder other Builder.clear).builder other
    exact congrArg (giveBack before) hb
  constructor
  · rcases run_splice_cases build id other context w with ⟨e, hr⟩ | ⟨j, hr⟩
    · rw [hr]
      exact hback
    · rw [hr]
      exact (hback.trans (unmarked_append id _ _)).trans unmarked_of_benches
  · intro s hin
    obtain ⟨hbusy, hmarks⟩ := hstands s hin
    obtain ⟨hother, hbusy⟩ := List.cons_subset.mp hbusy
    exact ⟨hbusy, (unmarked_lent hother id w).trans hmarks⟩

end Workshop

open Workshop

/-! ## Programs and builds -/

variable {build : Building} {inner : Diary}

/-- Whether building is tidy, unless it sets a strictness. -/
def Building.Tidies (build : Building) (inner : Diary) : Prop :=
  ∀ (busy : List BuilderId) (id : BuilderId) (context : Value) (w : Workshop), id ∈ busy →
    Workshop.Tidies busy (inner busy id context w) w ((build id context).run w).2

mutual

/-- A step is tidy, unless it sets a strictness. -/
theorem Step.run_tidies (hb : build.Tidies inner) : ∀ (s : Step) {busy : List BuilderId}
    {id : BuilderId} (context : Value) (w : Workshop), id ∈ busy →
      Workshop.Tidies busy (s.touches build inner busy id context w) w
        ((s.run build id context).run w).2
  | .call c, busy, id, context, w => by
      intro _
      rw [Step.run, Step.touches]
      exact .bind_liftM fun c' => call_tidies id c' w
  | .block head body, busy, id, context, w => by
      intro hid
      rw [Step.run, run_liftM_bind, Step.touches]
      cases hh : head.resolve context with
      | error e =>
          have hr : (Step.openCondition id context head).run w = (.error e, w) := by
            rw [Step.openCondition, run_liftM_bind, hh]
          rw [follow_error hr]
          exact tidies_nil (.refl _ w)
      | ok h =>
          dsimp only
          rw [state_bind_pure]
          by_cases hopens : ∃ opener, h.opener = .ok opener ∧
              (w.builder id).openConditions.any (·.same h.condition) = false
          · obtain ⟨opener, ho, hn⟩ := hopens
            rw [follow_ok (Step.run_openCondition hh ho hn)]
            exact block_tidies hid ho hn (Program.run_tidies hb body context _ hid)
          · have hclosed : ∀ opener, h.opener = .ok opener →
                (w.builder id).openConditions.any (·.same h.condition) = true := fun opener ho =>
              Bool.of_not_eq_false fun hn => hopens ⟨opener, ho, hn⟩
            obtain ⟨e, he⟩ := run_block_error (Program.run build id context body) hclosed
            obtain ⟨f, hf⟩ := openCondition_error hh hclosed
            rw [he, follow_error hf]
            exact tidies_nil (.refl _ w)
  | .splice target c, busy, id, context, w => by
      intro _
      rw [Step.run, Step.touches]
      refine .bind_of_quiet (find_unmarked target w) fun other t _ => .bind_liftM fun context' => ?_
      rw [state_bind_pure]
      exact splice_tidies (hb (other :: busy) other context' _ List.mem_cons_self)
  | .build c, busy, id, context, w => by
      intro hid
      rw [Step.run, Step.touches]
      refine .bind_liftM fun context' => ?_
      rw [state_bind_pure]
      exact hb busy id context' w hid
  | .raise f, busy, id, context, w => fun _ => tidies_nil (.refl _ w)
  | .attempt body, busy, id, context, w => by
      intro hid hs
      have h : Tidy busy (Program.touches build inner busy id context body w) w _ :=
        Program.run_tidies hb body context w hid hs
      exact ⟨h.unmarked.trans unmarked_of_benches, h.stands⟩
  | .on target step, busy, id, context, w => by
      intro _
      rw [Step.run, Step.touches]
      refine .bind_of_quiet (find_unmarked target w) fun other t _ => Tidies.cons ?_ nofun
      exact (Step.run_tidies hb step context t List.mem_cons_self).mono (List.subset_cons_self _ _)
  | .inspect target, busy, id, context, w => by
      intro _
      rw [Step.run, Step.touches]
      refine .bind_of_quiet (find_unmarked target w) fun other t _ => Tidies.cons ?_ nofun
      exact tidies_nil (.refl _ t)
termination_by structural s => s

/-- So are steps in order. -/
theorem Program.run_tidies (hb : build.Tidies inner) : ∀ (ss : List Step) {busy : List BuilderId}
    {id : BuilderId} (context : Value) (w : Workshop), id ∈ busy →
      Workshop.Tidies busy (Program.touches build inner busy id context ss w) w
        ((Program.run build id context ss).run w).2
  | [], busy, id, context, w => fun _ => tidies_nil (.refl _ w)
  | s :: ss, busy, id, context, w => by
      intro hid
      rw [Program.run, Program.touches]
      refine Tidies.stand ((Step.run_tidies hb s context w hid).bind fun _ t _ => ?_)
      exact Program.run_tidies hb ss context t hid
termination_by structural ss => ss

end

/-- So is building, to whatever depth builders build inside one another. -/
theorem Builder.build_tidies (depth : Nat) :
    (Builder.build depth).Tidies (Builder.touches depth) := by
  induction depth with
  | zero => exact fun _ _ _ w _ => Tidies.cons (tidies_nil (.refl _ w)) nofun
  | succ depth ih =>
      intro busy id context w hid
      have hp : Tidies busy (Program.touches _ _ busy id context (w.bench id).program w) w _ :=
        Program.run_tidies ih (w.bench id).program context w hid
      rw [run_build, Builder.touches]
      cases hk : (w.builder id).kind with
      | plain => exact tidies_nil (.refl _ w)
      | setup => exact tidies_nil (unmarked_append id (w.builder id).setupCommands w)
      | teardown => exact tidies_nil (unmarked_append id teardownCommands w)
      | query => exact tidies_nil (addOwnQuery_unmarked id w)
      | script => exact hp
      | scriptQuery =>
          dsimp only
          rcases run_bind_cases (Program.run (Builder.build depth) id context (w.bench id).program)
            (fun _ => Workshop.addOwnQuery id) w with ⟨u, t, hr, hrun⟩ | ⟨e, t, hr, hrun⟩
          · rw [hr] at hp
            rw [hrun]
            have hquery := hp.append (tidies_nil (addOwnQuery_unmarked id t))
            rwa [List.append_nil] at hquery
          · rw [hr] at hp
            rw [hrun]
            exact hp

/-! ## Histories -/

namespace Workshop

/-- Calls on a builder, made one after another until one fails. -/
structure Use where
  id : BuilderId
  context : Value := .null
  steps : Program

/-- The workshop after some uses.  A fault ends its own use only. -/
def afterUses (depth : Nat) : List Use → Workshop → Workshop
  | [], w => w
  | u :: us, w =>
    afterUses depth us ((Program.run (Builder.build depth) u.id u.context u.steps).run w).2

/-- The touches of some uses.  In between and in the end no call is in progress. -/
def touchesOfUses (depth : Nat) : List Use → Workshop → List Touch
  | [], w => [.stands ⟨[], w⟩]
  | u :: us, w =>
    .stands ⟨[], w⟩ ::
      (Program.touches (Builder.build depth) (Builder.touches depth) [u.id] u.id u.context
          u.steps w ++
        touchesOfUses depth us ((Program.run (Builder.build depth) u.id u.context u.steps).run w).2)

/-- Some uses are tidy, unless they set a strictness. -/
theorem afterUses_tidies (depth : Nat) (us : List Use) (w : Workshop) :
    Tidies [] (touchesOfUses depth us w) w (afterUses depth us w) := by
  induction us generalizing w with
  | nil => exact Tidies.stand (tidies_nil (.refl _ w))
  | cons u us ih =>
      have hu := Program.run_tidies (Builder.build_tidies depth) u.steps u.context w
        (List.mem_singleton_self u.id)
      exact Tidies.stand ((hu.mono (List.nil_subset _)).append (ih _))

/-- After some uses no call is in progress. -/
theorem stands_afterUses (depth : Nat) (us : List Use) (w : Workshop) :
    Touch.stands ⟨[], afterUses depth us w⟩ ∈ touchesOfUses depth us w := by
  induction us generalizing w with
  | nil => exact List.mem_singleton_self _
  | cons u us ih => exact List.mem_cons_of_mem _ (List.mem_append_right _ (ih _))

end Workshop

end Cockpit
