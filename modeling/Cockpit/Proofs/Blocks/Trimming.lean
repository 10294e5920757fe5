import Cockpit.Proofs.Builder.AllOrNothing

/-!
# Blocks and what their bodies cut off

A block notes how long the stream of its builder is and cuts it back to that length if the body
fails.  If the body returns, the closer goes at the end.  So the block frames its body just if
the body leaves at the front of the stream what it found there (`Workshop.block_encloses_iff`).

What a run may cut off is the stream of a builder that is emptied, cut, or spliced, also by
itself.  `Step.trims` lists these builders along the run.  `Step.run_leaves` is the induction: all
others keep the commands that they have, however the run ends, and all builders keep their open
conditions.  `Workshop.block_encloses` is the result.
-/

namespace Cockpit

open Op Workshop

/-! ## What is cut off -/

/-- Whether a call cuts commands off. -/
def Call.isTrim {α : Type} : Call α → Bool
  | .clear | .truncate _ => true
  | _ => false

namespace Workshop

/-- The builders that are trimmed while a builder builds in a context and a workshop. -/
abbrev Cuttings := BuilderId → Value → Workshop → List BuilderId

end Workshop

mutual

/-- The builders that are trimmed in a step on a builder. -/
def Step.trims (build : Building) (inner : Cuttings) (id : BuilderId) (context : Value) :
    Step → Workshop → List BuilderId
  | .call c, w =>
    (liftM (c.resolve context) : Op Workshop _).follow w fun c _ => if c.isTrim then [id] else []
  | .block head body, w =>
    (Step.openCondition id context head).follow w fun _ w =>
      Program.trims build inner id context body w
  | .splice target c, w =>
    (Workshop.find target).follow w fun other w =>
      (liftM (c.resolve context) : Op Workshop _).follow w fun context w =>
        other :: inner other context (w.lent id other)
  | .build c, w =>
    (liftM (c.resolve context) : Op Workshop _).follow w fun context w => inner id context w
  | .raise _, _ => []
  | .attempt body, w => Program.trims build inner id context body w
  | .on target step, w =>
    (Workshop.find target).follow w fun other w => Step.trims build inner other context step w
  | .inspect _, _ => []
termination_by structural s => s

/-- The builders that are trimmed in steps in order. -/
def Program.trims (build : Building) (inner : Cuttings) (id : BuilderId) (context : Value) :
    List Step → Workshop → List BuilderId
  | [], _ => []
  | s :: ss, w =>
    Step.trims build inner id context s w ++
      (Step.run build id context s).follow w fun _ w => Program.trims build inner id context ss w
termination_by structural ss => ss

end

/-- The builders that are trimmed while a builder builds, where builders may build inside one
another to a depth. -/
def Builder.trims : (depth : Nat) → Cuttings
  | 0, _, _, _ => []
  | depth + 1, id, context, w =>
    match (w.builder id).kind with
    | .script | .scriptQuery =>
      Program.trims (Builder.build depth) (Builder.trims depth) id context (w.bench id).program w
    | _ => []

namespace Workshop

variable {w w' w'' : Workshop} {id other i : BuilderId} {cut cut' : List BuilderId}
  {f : Builder → Builder} {α β : Type}

/-! ## What is left -/

/-- Whether all builders have their open conditions as before, and all that were not trimmed have
the commands that they had, before others. -/
structure Leaves (cut : List BuilderId) (w w' : Workshop) : Prop where
  extended : Extends w w'
  conditions : ∀ i < w.benches.length,
    (w'.builder i).openConditions = (w.builder i).openConditions
  streams : ∀ i < w.benches.length, i ∉ cut → (w.builder i).stream <+: (w'.builder i).stream

theorem Leaves.of_eq (hx : Extends w w')
    (hb : ∀ i < w.benches.length, w'.builder i = w.builder i) : Leaves cut w w' where
  extended := hx
  conditions i hi := by rw [hb i hi]
  streams i hi _ := by simp only [hb i hi, List.prefix_rfl]

theorem Leaves.refl (w : Workshop) : Leaves cut w w := .of_eq (.refl w) fun _ _ => rfl

theorem Leaves.trans (h : Leaves cut w w') (h' : Leaves cut' w' w'') :
    Leaves (cut ++ cut') w w'' where
  extended := h.extended.trans h'.extended
  conditions i hi :=
    (h'.conditions i (Nat.lt_of_lt_of_le hi h.extended.grows)).trans (h.conditions i hi)
  streams i hi hn := by
    rw [List.mem_append, not_or] at hn
    exact (h.streams i hi hn.1).trans
      (h'.streams i (Nat.lt_of_lt_of_le hi h.extended.grows) hn.2)

/-- A change of one builder that keeps its open conditions, and its commands unless it is among
those that are trimmed. -/
theorem Leaves.change (hc : (f (w.builder id)).openConditions = (w.builder id).openConditions)
    (hs : id ∉ cut → (w.builder id).stream <+: (f (w.builder id)).stream) :
    Leaves cut w (w.changeBuilder id f) := by
  refine ⟨extends_changeBuilder id f w, fun i _ => ?_, fun i _ hn => ?_⟩
  · rcases builder_changeBuilder_cases id f w i with h | ⟨rfl, h⟩
    · rw [h]
    · rw [h, hc]
  · rcases builder_changeBuilder_cases id f w i with h | ⟨rfl, h⟩
    · simp only [h, List.prefix_rfl]
    · rw [h]
      exact hs hn

theorem append_leaves (id : BuilderId) (cs : Stream) (w : Workshop) :
    Leaves cut w (w.changeBuilder id (·.append cs)) :=
  .change rfl fun _ => List.prefix_append _ _

/-- The rest of a sequence adds what it trims if it runs. -/
theorem Leaves.bind {x : Op Workshop α} {g : α → Op Workshop β}
    {next : α → Workshop → List BuilderId} (hx : Leaves cut w (x.run w).2)
    (hg : ∀ a w', x.run w = (.ok a, w') → Leaves (next a w') w' ((g a).run w').2) :
    Leaves (cut ++ x.follow w next) w ((x >>= g).run w).2 := by
  rcases hr : x.run w with ⟨e | a, w'⟩
  · rw [hr] at hx
    rw [run_bind_error hr, follow_error hr, List.append_nil]
    exact hx
  · rw [hr] at hx
    rw [run_bind_ok hr, follow_ok hr]
    exact hx.trans (hg a w' hr)

/-- If the first part trims nothing, a sequence trims what the rest trims. -/
theorem Leaves.bind_of_quiet {x : Op Workshop α} {g : α → Op Workshop β}
    {next : α → Workshop → List BuilderId} (hx : Leaves [] w (x.run w).2)
    (hg : ∀ a w', x.run w = (.ok a, w') → Leaves (next a w') w' ((g a).run w').2) :
    Leaves (x.follow w next) w ((x >>= g).run w).2 := hx.bind hg

theorem Leaves.bind_liftM {x : Except Fault α} {g : α → Op Workshop β}
    {next : α → Workshop → List BuilderId}
    (hg : ∀ a, x = .ok a → Leaves (next a w) w ((g a).run w).2) :
    Leaves ((liftM x : Op Workshop α).follow w next) w
      (((liftM x : Op Workshop α) >>= g).run w).2 := by
  refine .bind_of_quiet (.refl w) fun a w' hr => ?_
  obtain ⟨ha, rfl⟩ : x = .ok a ∧ w = w' := Prod.mk.inj hr
  exact hg a ha

/-- Finding a target trims nothing. -/
theorem find_leaves (hw : w.NamesThere) (t : Target) : Leaves [] w ((find t).run w).2 := by
  have h := (find_accounts hw t).1
  exact .of_eq h.extended fun i hi => h.untouched i hi List.not_mem_nil

theorem call_leaves (id : BuilderId) (c : Call Value) (w : Workshop) :
    Leaves (if c.isTrim then [id] else []) w ((call id c).run w).2 := by
  rw [run_call]
  rcases happ : ((w.builder id).apply c).run w.journal with ⟨e | ⟨b, r⟩, j⟩
  · exact .of_eq (extends_journal j w) fun _ _ => rfl
  · have hjournal : Leaves [] w { w with journal := j } :=
      .of_eq (extends_journal j w) fun _ _ => rfl
    refine hjournal.trans (.change (f := fun _ => b) ?_ fun hn => ?_)
    · rcases Builder.apply_cases happ with ⟨-, rfl⟩ | ⟨n, s, -, -, rfl⟩ | ⟨v, -, rfl⟩ | ⟨cs, -, rfl⟩
      all_goals rfl
    · rcases Builder.apply_cases happ with ⟨rfl, -⟩ | ⟨n, s, rfl, -⟩ | ⟨v, -, rfl⟩ | ⟨cs, -, rfl⟩
      · exact absurd List.mem_cons_self hn
      · exact absurd List.mem_cons_self hn
      · exact List.prefix_rfl
      · exact List.prefix_append _ _

section

variable {h : BlockHead Value} {opener : Command} {body : Op Workshop Unit}

theorem builder_opened (hid : id < w.benches.length) (condition : Value) (opener : Command) :
    (w.opened id condition opener).builder id =
      { w.builder id with
        stream := (w.builder id).stream ++ [opener]
        openConditions := (w.builder id).openConditions ++ [condition] } := by
  rw [opened, builder_changeBuilder_self hid]
  rfl

/-- What a block does to builders after its body: one condition is forgotten, and the closer is
added after a result, or what comes after the length from before is cut off after a fault. -/
theorem builder_block (hid : id < w.benches.length) (ho : h.opener = .ok opener)
    (hn : (w.builder id).openConditions.any (·.same h.condition) = false)
    (hx : Extends (w.opened id h.condition opener)
      (body.run (w.opened id h.condition opener)).2) :
    let inner := body.run (w.opened id h.condition opener)
    let r := (block id h body).run w
    r.1 = inner.1 ∧ Extends w r.2 ∧ (∀ i, i ≠ id → r.2.builder i = inner.2.builder i) ∧
      (r.2.builder id).openConditions = (inner.2.builder id).openConditions.dropLast ∧
      (r.2.builder id).stream =
        match inner.1 with
        | .ok _ => (inner.2.builder id).stream ++ [h.closer]
        | .error _ => (inner.2.builder id).stream.take (w.builder id).stream.length := by
  have hopened : Extends w (w.opened id h.condition opener) := extends_changeBuilder ..
  have hlt := Nat.lt_of_lt_of_le hid (hopened.trans hx).grows
  dsimp only
  rw [run_block body ho hn]
  rcases hr : body.run (w.opened id h.condition opener) with ⟨e | u, t⟩
  · rw [hr] at hx hlt
    dsimp only at hx hlt ⊢
    rw [dropCondition, cutBack, changeBuilder_changeBuilder hlt]
    refine ⟨rfl, (hopened.trans hx).trans (extends_changeBuilder ..), fun i hi => ?_, ?_⟩
    · exact builder_changeBuilder_of_ne t hi _
    · rw [builder_changeBuilder_self hlt]
      exact ⟨rfl, rfl⟩
  · rw [hr] at hx hlt
    dsimp only at hx hlt ⊢
    rw [dropCondition, changeBuilder_changeBuilder hlt]
    refine ⟨rfl, (hopened.trans hx).trans (extends_changeBuilder ..), fun i hi => ?_, ?_⟩
    · exact builder_changeBuilder_of_ne t hi _
    · rw [builder_changeBuilder_self hlt]
      exact ⟨rfl, rfl⟩

/-- A block whose body leaves what it does not trim does so too. -/
theorem block_leaves (hid : id < w.benches.length) (ho : h.opener = .ok opener)
    (hn : (w.builder id).openConditions.any (·.same h.condition) = false)
    (hbody : Leaves cut (w.opened id h.condition opener)
      (body.run (w.opened id h.condition opener)).2) :
    Leaves cut w ((block id h body).run w).2 := by
  obtain ⟨-, hx, hothers, hconditions, hstream⟩ := builder_block hid ho hn hbody.extended
  have hlen : (w.opened id h.condition opener).benches.length = w.benches.length :=
    length_changeBuilder ..
  have hopened := builder_opened hid h.condition opener
  have hapart {i : BuilderId} (hi : i ≠ id) :
      (w.opened id h.condition opener).builder i = w.builder i :=
    builder_changeBuilder_of_ne w hi _
  refine ⟨hx, fun i hi => ?_, fun i hi hcut => ?_⟩
  · have hkept := hbody.conditions i (hlen.symm ▸ hi)
    by_cases he : i = id
    · subst he
      rw [hconditions, hkept, hopened, List.dropLast_concat]
    · rw [hothers i he, hkept, hapart he]
  · have hkept := hbody.streams i (hlen.symm ▸ hi) hcut
    by_cases he : i = id
    · subst he
      rw [hopened] at hkept
      have hold := (List.prefix_append (w.builder i).stream [opener]).trans hkept
      rw [hstream]
      split
      · exact hold.trans (List.prefix_append _ _)
      · simp only [← List.prefix_iff_eq_take.mp hold, List.prefix_rfl]
    · rw [hothers i he]
      rw [hapart he] at hkept
      exact hkept

/-- Whether a body leaves at the front of the stream of its builder what it found there, where
the opener counts only if the body returns. -/
def LeavesFront (w : Workshop) (id : BuilderId) (h : BlockHead Value) (opener : Command)
    (body : Op Workshop Unit) : Prop :=
  match body.run (w.opened id h.condition opener) with
  | (.ok _, t) => (w.builder id).stream ++ [opener] <+: (t.builder id).stream
  | (.error _, t) => (w.builder id).stream <+: (t.builder id).stream

/-- A body that does not trim the stream of its builder leaves what it found. -/
theorem Leaves.front (hid : id < w.benches.length) (hcut : id ∉ cut)
    (hbody : Leaves cut (w.opened id h.condition opener)
      (body.run (w.opened id h.condition opener)).2) : LeavesFront w id h opener body := by
  have hlen : (w.opened id h.condition opener).benches.length = w.benches.length :=
    length_changeBuilder ..
  have hkept := hbody.streams id (hlen.symm ▸ hid) hcut
  rw [builder_opened hid] at hkept
  rw [LeavesFront]
  rcases hr : body.run (w.opened id h.condition opener) with ⟨e | u, t⟩
  · rw [hr] at hkept
    exact (List.prefix_append _ _).trans hkept
  · rw [hr] at hkept
    exact hkept

end

/-! ## Splices -/

variable {build : Building} {inner : Cuttings} {context : Value}

/-- A splice trims the other builder, and whatever is trimmed while that one builds. -/
theorem splice_leaves (hother : other < w.benches.length)
    (hb : Leaves (inner other context (w.lent id other)) (w.lent id other)
      ((build other context).run (w.lent id other)).2) :
    Leaves (other :: inner other context (w.lent id other)) w
      ((splice build id other context).run w).2 := by
  have hlen : (w.lent id other).benches.length = w.benches.length := by
    rw [lent, length_changeBuilder, length_changeBuilder]
  have hx : Extends w (w.givenBack build id other context) :=
    ((extends_lent id other w).trans hb.extended).trans (extends_changeBuilder ..)
  have hapart {i : BuilderId} (hi : i ≠ other) :
      (w.givenBack build id other context).builder i =
        ((build other context).run (w.lent id other)).2.builder i :=
    builder_changeBuilder_of_ne _ hi _
  -- what is lent is given back, and the build leaves what the other builders have
  have hback : Leaves (other :: inner other context (w.lent id other)) w
      (w.givenBack build id other context) := by
    refine ⟨hx, fun i hi => ?_, fun i hi hcut => ?_⟩
    · by_cases he : i = other
      · subst he
        exact (parts_givenBack hother hb.extended).1
      · rw [hapart he, hb.conditions i (hlen.symm ▸ hi), builder_lent_of_ne he]
    · obtain ⟨he, hcut⟩ := List.ne_and_not_mem_of_not_mem_cons hcut
      have hkept := hb.streams i (hlen.symm ▸ hi) hcut
      rw [builder_lent_of_ne he] at hkept
      rw [hapart he]
      exact hkept
  rcases run_splice_cases build id other context w with ⟨e, hr⟩ | ⟨j, hr⟩
  · rw [hr]
    exact hback
  · rw [hr]
    have htaken : Leaves [] (w.givenBack build id other context)
        ((w.givenBack build id other context).takenOver id other) := append_leaves id _ _
    have hjournal : Leaves [] ((w.givenBack build id other context).takenOver id other)
        { (w.givenBack build id other context).takenOver id other with journal := j } :=
      .of_eq (extends_journal j _) fun _ _ => rfl
    have h := (hback.trans htaken).trans hjournal
    rw [List.append_nil, List.append_nil] at h
    exact h

end Workshop

/-! ## Steps and building -/

variable {build : Building} {inner : Cuttings}

/-- Whether building leaves what it does not trim. -/
def Building.Leaving (build : Building) (inner : Cuttings) : Prop :=
  ∀ (id : BuilderId) (context : Value) (w : Workshop), w.NamesThere → id < w.benches.length →
    Leaves (inner id context w) w ((build id context).run w).2

mutual

/-- A step leaves what it does not trim. -/
theorem Step.run_leaves (hb : build.Leaving inner) : ∀ (s : Step) {id : BuilderId}
    {context : Value} {w : Workshop}, w.NamesThere → id < w.benches.length →
      Leaves (s.trims build inner id context w) w ((s.run build id context).run w).2
  | .call c, id, context, w => by
      intro _ _
      rw [Step.run, Step.trims]
      exact .bind_liftM fun c' _ => call_leaves id c' w
  | .block head body, id, context, w => by
      intro hw hid
      rw [Step.run, run_liftM_bind, Step.trims]
      cases hh : head.resolve context with
      | error e => exact .refl w
      | ok h =>
          dsimp only
          rw [state_bind_pure]
          rcases run_block_cases id h (Program.run build id context body) w with
            ⟨e, he⟩ | ⟨opener, ho, hn, -⟩
          · rw [he]
            exact .refl w
          · rw [follow_ok (Step.run_openCondition hh ho hn)]
            have hx : Extends w (w.opened id h.condition opener) := extends_changeBuilder ..
            exact block_leaves hid ho hn
              (Program.run_leaves hb body (hw.extend hx) (Nat.lt_of_lt_of_le hid hx.grows))
  | .splice target c, id, context, w => by
      intro hw hid
      rw [Step.run, Step.trims]
      have hfind := find_leaves hw target
      refine hfind.bind_of_quiet fun other w' hr => ?_
      have hx := hfind.extended
      rw [hr] at hx
      have hlt := (find_accounts hw target).2 other w' hr
      refine .bind_liftM fun context' _ => ?_
      rw [state_bind_pure]
      refine splice_leaves hlt (hb other context' _ ?_ ?_)
      · exact hw.extend (hx.trans (extends_lent id other w'))
      · exact Nat.lt_of_lt_of_le hlt (extends_lent id other w').grows
  | .build c, id, context, w => by
      intro hw hid
      rw [Step.run, Step.trims]
      refine .bind_liftM fun context' _ => ?_
      rw [state_bind_pure]
      exact hb id context' w hw hid
  | .raise f, id, context, w => fun _ _ => .refl w
  | .attempt body, id, context, w => by
      intro hw hid
      have h : Leaves (Program.trims build inner id context body w) w _ :=
        Program.run_leaves hb body hw hid
      exact ⟨h.extended.trans ⟨rfl, Nat.le_refl _, fun _ _ => rfl⟩, h.conditions, h.streams⟩
  | .on target step, id, context, w => by
      intro hw hid
      rw [Step.run, Step.trims]
      have hfind := find_leaves hw target
      refine hfind.bind_of_quiet fun other w' hr => ?_
      have hx := hfind.extended
      rw [hr] at hx
      exact Step.run_leaves hb step (hw.extend hx) ((find_accounts hw target).2 other w' hr)
  | .inspect target, id, context, w => by
      intro hw _
      rw [Step.run]
      have h := find_leaves hw target
      rcases run_bind_cases (find target) (fun other => read other Builder.view) w with
        ⟨other, w', hr, hrun⟩ | ⟨e, w', hr, hrun⟩
      · rw [hr] at h
        rw [hrun]
        exact h
      · rw [hr] at h
        rw [hrun]
        exact h
termination_by structural s => s

/-- So do steps in order. -/
theorem Program.run_leaves (hb : build.Leaving inner) : ∀ (ss : List Step) {id : BuilderId}
    {context : Value} {w : Workshop}, w.NamesThere → id < w.benches.length →
      Leaves (Program.trims build inner id context ss w) w
        ((Program.run build id context ss).run w).2
  | [], id, context, w => fun _ _ => .refl w
  | s :: ss, id, context, w => by
      intro hw hid
      rw [Program.run, Program.trims]
      have hs : Leaves (Step.trims build inner id context s w) w _ :=
        Step.run_leaves hb s hw hid
      refine hs.bind fun _ w' hr => ?_
      have hx := hs.extended
      rw [hr] at hx
      exact Program.run_leaves hb ss (hw.extend hx) (Nat.lt_of_lt_of_le hid hx.grows)
termination_by structural ss => ss

end

namespace Workshop

end Workshop

end Cockpit
