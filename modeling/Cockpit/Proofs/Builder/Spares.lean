import Cockpit.Proofs.Builder.Runs

/-!
# Builders that a program does not touch

A program *only adds* if it makes calls that append commands, opens blocks, fails, and
splices builders whose programs only add too.  Such a program changes the builder that it
runs on and the builders that it splices, and looks at no other one.

`Op.Spares apart x w` says that running `x` in `w` neither changes nor looks at the builders
of a list: whatever they are replaced by, the run gives the same and leaves them alone.  The
lemmas follow how operations are put together, and `Program.run_spares` and
`Builder.build_spares` say it of programs that only add.
-/

namespace Cockpit

/-! ## Programs that only add -/

/-- Whether a call does nothing but append commands. -/
def Call.isAdding {α : Type} : Call α → Bool
  | .clear => false
  | .device _ => false
  | .truncate _ => false
  | .commands => false
  | .setStrict _ => false
  | _ => true

/-! ### Reading operands -/

/-- Every result of a computation has a property. -/
def Gives {α : Type} (x : Except Fault α) (P : α → Prop) : Prop := ∀ a, x = .ok a → P a

theorem gives_pure {α : Type} {P : α → Prop} {a : α} (h : P a) :
    Gives (pure a : Except Fault α) P := by
  intro b hb
  cases hb
  exact h

theorem gives_bind {α β : Type} {x : Except Fault α} {f : α → Except Fault β} {P : β → Prop}
    (hf : ∀ a, Gives (f a) P) : Gives (x >>= f) P := by
  intro b hb
  cases x with
  | error e => cases hb
  | ok a => exact hf a b hb

/-- Reading the operands of a call that only appends gives such a call. -/
theorem Call.resolve_isAdding {c : Call Operand} (hc : c.isAdding = true) (context : Value) :
    Gives (c.resolve context) fun c' => c'.isAdding = true := by
  rw [Call.resolve]
  cases c with
  | clear => cases hc
  | device n => cases hc
  | truncate n => cases hc
  | commands => cases hc
  | setStrict v => cases hc
  | misuse d =>
      cases d with
      | none => exact gives_pure rfl
      | some d => exact gives_bind fun _ => gives_pure rfl
  | _ => repeat' first | exact gives_pure rfl | refine gives_bind fun _ => ?_

/-- Reading the operands of a call that sets no strictness gives one that sets none. -/
theorem Call.resolve_ne_setStrict {c : Call Operand} (hc : ∀ v, c ≠ .setStrict v)
    (context : Value) : Gives (c.resolve context) fun c' => ∀ v, c' ≠ .setStrict v := by
  rw [Call.resolve]
  cases c with
  | setStrict v => exact absurd rfl (hc v)
  | misuse d =>
      cases d with
      | none => exact gives_pure nofun
      | some d => exact gives_bind fun _ => gives_pure nofun
  | _ => repeat' first | exact gives_pure nofun | refine gives_bind fun _ => ?_

/-! ### Steps -/

mutual

/-- Whether a step only adds, and splices only new builders and those of some names. -/
def Step.onlyAdds (names : List String) : Step → Bool
  | .call c => c.isAdding
  | .block _ body => Program.onlyAdds names body
  | .splice target _ => target.onlyAdds names
  | .raise _ => true
  | _ => false
termination_by structural s => s

/-- Whether a target is a new builder that only adds, or has one of some names. -/
def Target.onlyAdds (names : List String) : Target → Bool
  | .named n => names.contains n
  | .fresh _ _ _ _ _ program => Program.onlyAdds names program
termination_by structural t => t

/-- Whether all steps of a program only add. -/
def Program.onlyAdds (names : List String) : List Step → Bool
  | [] => true
  | s :: ss => s.onlyAdds names && Program.onlyAdds names ss
termination_by structural ss => ss

end

open Op

namespace Workshop

variable {w w' w'' : Workshop} {names : List String} {apart : List BuilderId}
  {id other i : BuilderId}

/-- Whether some names stand for builders that only add and are none of those apart. -/
def Supplies (names : List String) (apart : List BuilderId) (w : Workshop) : Prop :=
  ∀ n ∈ names, ∀ id, w.names.lookup n = some id →
    id < w.benches.length ∧ id ∉ apart ∧ Program.onlyAdds names (w.bench id).program = true

/-- What programs that only add leave as it is: the names, and the programs of builders. -/
structure Extends (w w' : Workshop) : Prop where
  names : w'.names = w.names
  grows : w.benches.length ≤ w'.benches.length
  programs : ∀ id < w.benches.length, (w'.bench id).program = (w.bench id).program

theorem Extends.refl (w : Workshop) : Extends w w := ⟨rfl, Nat.le_refl _, fun _ _ => rfl⟩

theorem Extends.trans (h : Extends w w') (h' : Extends w' w'') : Extends w w'' where
  names := h'.names.trans h.names
  grows := Nat.le_trans h.grows h'.grows
  programs id hid :=
    (h'.programs id (Nat.lt_of_lt_of_le hid h.grows)).trans (h.programs id hid)

theorem Supplies.extend (hs : Supplies names apart w) (h : Extends w w') :
    Supplies names apart w' := by
  intro n hn id hid
  rw [h.names] at hid
  obtain ⟨hlt, hout, hadds⟩ := hs n hn id hid
  exact ⟨Nat.lt_of_lt_of_le hlt h.grows, hout, (h.programs id hlt).symm ▸ hadds⟩

theorem Supplies.mono {apart' : List BuilderId} (hs : Supplies names apart w)
    (h : ∀ id ∈ apart', id ∈ apart) : Supplies names apart' w := by
  intro n hn id hid
  obtain ⟨hlt, hout, hadds⟩ := hs n hn id hid
  exact ⟨hlt, fun hin => hout (h id hin), hadds⟩

/-! ## Replacing builders -/

/-- The workshop with some builders replaced. -/
def override (apart : List BuilderId) (g : BuilderId → Builder) (w : Workshop) : Workshop :=
  { w with benches := w.benches.mapIdx fun i n =>
      if i ∈ apart then { n with builder := g i } else n }

variable {g : BuilderId → Builder} {f : Builder → Builder} {b : Builder}

@[simp] theorem length_override : (w.override apart g).benches.length = w.benches.length :=
  List.length_mapIdx

@[simp] theorem names_override : (w.override apart g).names = w.names := rfl

theorem bench_override (hid : id < w.benches.length) : (w.override apart g).bench id =
    if id ∈ apart then { w.bench id with builder := g id } else w.bench id := by
  simp only [bench, override, List.getElem?_mapIdx, List.getElem?_eq_getElem hid, Option.map_some,
    Option.getD_some]

theorem bench_of_length_le (hid : w.benches.length ≤ id) : w.bench id = {} := by
  rw [bench, List.getElem?_eq_none hid]
  rfl

/-- A bench whose builder is not replaced. -/
theorem bench_override_of_notMem (h : id ∉ apart) :
    (w.override apart g).bench id = w.bench id := by
  by_cases hid : id < w.benches.length
  · rw [bench_override hid, if_neg h]
  · have hle := Nat.le_of_not_lt hid
    rw [bench_of_length_le hle, bench_of_length_le]
    rwa [length_override]

theorem builder_override_of_notMem (h : id ∉ apart) :
    (w.override apart g).builder id = w.builder id := by
  rw [builder, bench_override_of_notMem h, builder]

theorem builder_override_of_mem (h : id ∈ apart) (hid : id < w.benches.length) :
    (w.override apart g).builder id = g id := by
  rw [builder, bench_override hid, if_pos h]

/-- Workshops with the same benches and the same beside them are the same. -/
theorem eq_of_benches {u v : Workshop} (hb : ∀ i : Nat, u.benches[i]? = v.benches[i]?)
    (ha : u.airframe = v.airframe) (hn : u.names = v.names) (hc : u.caught = v.caught)
    (hj : u.journal = v.journal) : u = v := by
  cases u
  cases v
  obtain rfl := List.ext_getElem? hb
  cases ha
  cases hn
  cases hc
  cases hj
  rfl

theorem override_builder (apart : List BuilderId) (w : Workshop) :
    w.override apart w.builder = w := by
  refine eq_of_benches (fun i => ?_) rfl rfl rfl rfl
  rw [override, List.getElem?_mapIdx]
  cases h : w.benches[i]? with
  | none => rfl
  | some n =>
      have hb : w.builder i = n.builder := by rw [builder, bench, h, Option.getD_some]
      rw [Option.map_some, hb]
      split
      · rfl
      · rfl

/-- Only what the chosen builders are replaced by counts. -/
theorem override_congr {g' : BuilderId → Builder} (h : ∀ i ∈ apart, g i = g' i) :
    w.override apart g = w.override apart g' := by
  refine eq_of_benches (fun i => ?_) rfl rfl rfl rfl
  rw [override, override, List.getElem?_mapIdx, List.getElem?_mapIdx]
  cases w.benches[i]? with
  | none => rfl
  | some n =>
      by_cases hi : i ∈ apart
      · simp [hi, h i hi]
      · simp [hi]

theorem setBuilder_override (h : id ∉ apart) :
    (w.override apart g).setBuilder id b = (w.setBuilder id b).override apart g := by
  refine eq_of_benches (fun i => ?_) rfl rfl rfl rfl
  rw [setBuilder, override, override, setBuilder, List.getElem?_modify, List.getElem?_mapIdx,
    List.getElem?_mapIdx, List.getElem?_modify]
  cases w.benches[i]? with
  | none => rfl
  | some n =>
      by_cases hi : id = i
      · subst hi
        simp [h]
      · simp [hi]

theorem changeBuilder_override (h : id ∉ apart) :
    (w.override apart g).changeBuilder id f = (w.changeBuilder id f).override apart g := by
  rw [changeBuilder, builder_override_of_notMem h, setBuilder_override h, changeBuilder]

/-- A change of a builder that is replaced does not show. -/
theorem override_setBuilder (h : id ∈ apart) :
    (w.setBuilder id b).override apart g = w.override apart g := by
  refine eq_of_benches (fun i => ?_) rfl rfl rfl rfl
  rw [override, override, setBuilder, List.getElem?_mapIdx, List.getElem?_mapIdx,
    List.getElem?_modify]
  cases w.benches[i]? with
  | none => rfl
  | some n =>
      by_cases hi : id = i
      · subst hi
        simp [h]
      · simp [hi]

/-- Replacing one more of the builders that are replaced. -/
theorem setBuilder_override_of_mem (h : id ∈ apart) :
    (w.override apart g).setBuilder id b =
      w.override apart fun i => if i = id then b else g i := by
  refine eq_of_benches (fun i => ?_) rfl rfl rfl rfl
  rw [setBuilder, override, override, List.getElem?_modify, List.getElem?_mapIdx,
    List.getElem?_mapIdx]
  cases w.benches[i]? with
  | none => rfl
  | some n =>
      by_cases hi : id = i
      · subst hi
        simp [h]
      · simp [hi, Ne.symm hi]

theorem withBench_override {n : Bench} (h : ∀ i ∈ apart, i < w.benches.length) :
    (w.override apart g).withBench n = (w.withBench n).override apart g := by
  have hnew : w.benches.length ∉ apart := fun hin => Nat.lt_irrefl _ (h _ hin)
  refine eq_of_benches (fun i => ?_) rfl rfl rfl rfl
  rw [withBench, withBench, override, override]
  simp only [List.mapIdx_append, List.mapIdx_cons, List.mapIdx_nil, Nat.zero_add, if_neg hnew]

/-! ### What extends a workshop -/

theorem program_setBuilder (id i : BuilderId) (b : Builder) (w : Workshop) :
    ((w.setBuilder id b).bench i).program = (w.bench i).program := by
  rw [bench, bench, setBuilder, List.getElem?_modify]
  cases w.benches[i]? with
  | none => rfl
  | some n =>
      by_cases hi : id = i
      · simp [hi]
      · simp [hi]

theorem extends_setBuilder (id : BuilderId) (b : Builder) (w : Workshop) :
    Extends w (w.setBuilder id b) where
  names := rfl
  grows := Nat.le_of_eq (List.length_modify _ _ _).symm
  programs i _ := program_setBuilder id i b w

theorem extends_changeBuilder (id : BuilderId) (f : Builder → Builder) (w : Workshop) :
    Extends w (w.changeBuilder id f) := extends_setBuilder id _ w

theorem extends_lent (id other : BuilderId) (w : Workshop) : Extends w (w.lent id other) :=
  (extends_changeBuilder _ _ w).trans (extends_changeBuilder _ _ _)

theorem extends_withBench (n : Bench) (w : Workshop) : Extends w (w.withBench n) where
  names := rfl
  grows := by
    rw [withBench, List.length_append]
    exact Nat.le_add_right _ _
  programs i hi := by
    rw [bench, bench, withBench, List.getElem?_append_left hi]

end Workshop

/-! ## Operations that spare builders -/

namespace Op

open Workshop

variable {α β : Type} {apart : List BuilderId} {x : Op Workshop α} {w : Workshop}
  {id : BuilderId}

/-- Whether running an operation neither changes nor looks at some builders. -/
structure Spares (apart : List BuilderId) (x : Op Workshop α) (w : Workshop) : Prop where
  extended : Extends w (x.run w).2
  commutes : ∀ g, x.run (w.override apart g) = ((x.run w).1, (x.run w).2.override apart g)

/-- A builder that is spared stays as it is. -/
theorem Spares.builder_eq (h : x.Spares apart w) (hid : id ∈ apart)
    (hlt : id < w.benches.length) : (x.run w).2.builder id = w.builder id := by
  have hc := h.commutes w.builder
  rw [override_builder] at hc
  rw [hc]
  exact builder_override_of_mem hid (Nat.lt_of_lt_of_le hlt h.extended.grows)

/-- An operation that does nothing, and gives the same whatever some builders are replaced by,
spares them. -/
theorem spares_of_run {r : Except Fault α}
    (h : ∀ g, x.run (w.override apart g) = (r, w.override apart g)) : x.Spares apart w := by
  have hown := h w.builder
  rw [override_builder] at hown
  refine ⟨?_, fun g => ?_⟩
  · rw [hown]
    exact .refl w
  · rw [h g, hown]

theorem spares_pure (a : α) : (pure a : Op Workshop α).Spares apart w :=
  ⟨.refl w, fun _ => rfl⟩

theorem spares_stop (f : Fault) : (stop f : Op Workshop α).Spares apart w :=
  ⟨.refl w, fun _ => rfl⟩

theorem spares_liftM (x : Except Fault α) : (liftM x : Op Workshop α).Spares apart w :=
  ⟨.refl w, fun _ => rfl⟩

theorem spares_logged (x : Op Log.Journal α) : (logged x).Spares apart w :=
  ⟨⟨rfl, Nat.le_refl _, fun _ _ => rfl⟩, fun _ => rfl⟩

theorem spares_read (hid : id ∉ apart) (f : Builder → α) : (read id f).Spares apart w where
  extended := .refl w
  commutes g := by
    have hrun (w : Workshop) : (read id f).run w = (.ok (f (w.builder id)), w) := rfl
    rw [hrun, hrun, builder_override_of_notMem hid]

/-- An operation that does what another one does as long as a builder's bench is the same. -/
theorem Spares.of_bench {y : Op Workshop α} (hy : y.Spares apart w) (hid : id ∉ apart)
    (h : ∀ v : Workshop, v.bench id = w.bench id → x.run v = y.run v) : x.Spares apart w where
  extended := by
    rw [h w rfl]
    exact hy.extended
  commutes g := by
    rw [h w rfl, h _ (bench_override_of_notMem hid)]
    exact hy.commutes g

theorem spares_change (hid : id ∉ apart) (f : Builder → Builder) :
    (change id f).Spares apart w where
  extended := extends_changeBuilder id f w
  commutes g := by
    have hrun (w : Workshop) : (change id f).run w = (.ok (), w.changeBuilder id f) := rfl
    rw [hrun, hrun, changeBuilder_override hid]

theorem Spares.bind {f : α → Op Workshop β} (hx : x.Spares apart w)
    (hf : ∀ a w', x.run w = (.ok a, w') → Extends w w' → (f a).Spares apart w') :
    (x >>= f).Spares apart w := by
  have he := hx.extended
  rcases hr : x.run w with ⟨e | a, w'⟩
  · rw [hr] at he
    refine ⟨?_, fun g => ?_⟩
    · rw [run_bind_error hr]
      exact he
    · have hg := hx.commutes g
      rw [hr] at hg
      rw [run_bind_error hg, run_bind_error hr]
  · rw [hr] at he
    have hrest := hf a w' hr he
    refine ⟨?_, fun g => ?_⟩
    · rw [run_bind_ok hr]
      exact he.trans hrest.extended
    · have hg := hx.commutes g
      rw [hr] at hg
      rw [run_bind_ok hg, run_bind_ok hr]
      exact hrest.commutes g

theorem spares_ite {c : Prop} [Decidable c] {y : Op Workshop α} (hx : x.Spares apart w)
    (hy : y.Spares apart w) : (if c then x else y).Spares apart w := by
  split
  · exact hx
  · exact hy

theorem Spares.ensure (hx : x.Spares apart w) (hid : id ∉ apart) (f : Builder → Builder) :
    (x.ensure (changeBuilder id f)).Spares apart w where
  extended := hx.extended.trans (extends_changeBuilder id f _)
  commutes g := by
    rw [run_ensure, run_ensure, hx.commutes g, changeBuilder_override hid]

theorem Spares.onFault (hx : x.Spares apart w) (hid : id ∉ apart) (f : Builder → Builder) :
    (x.onFault (changeBuilder id f)).Spares apart w := by
  have he := hx.extended
  have hc := hx.commutes
  rcases hr : x.run w with ⟨e | a, w'⟩
  · rw [hr] at he hc
    refine ⟨?_, fun g => ?_⟩
    · rw [run_onFault, hr]
      exact he.trans (extends_changeBuilder id f w')
    · rw [run_onFault, run_onFault, hr, hc g]
      simp only [changeBuilder_override hid]
  · rw [hr] at he hc
    refine ⟨?_, fun g => ?_⟩
    · rw [run_onFault, hr]
      exact he
    · rw [run_onFault, run_onFault, hr, hc g]

end Op

namespace Workshop

variable {w : Workshop} {names : List String} {apart : List BuilderId} {id other : BuilderId}

theorem call_spares (hid : id ∉ apart) (c : Call Value) : (call id c).Spares apart w := by
  refine (spares_read hid _).bind fun b _ _ _ => (spares_logged _).bind fun r _ _ _ => ?_
  exact (spares_change hid _).bind fun _ _ _ _ => spares_pure _

theorem addOwnQuery_spares (hid : id ∉ apart) : (addOwnQuery id).Spares apart w := by
  refine (spares_read hid _).bind fun b _ _ _ => (spares_liftM _).bind fun b' _ _ _ => ?_
  exact spares_change hid _

theorem openBlock_spares (hid : id ∉ apart) (condition : Value) (opener : Command) :
    (openBlock id condition opener).Spares apart w := by
  refine (spares_read hid _).bind fun b _ _ _ => spares_ite (spares_stop _) ?_
  exact (spares_change hid _).bind fun _ _ _ _ => spares_pure _

/-- A block spares what its body spares. -/
theorem block_spares (hid : id ∉ apart) {body : Op Workshop Unit} (h : BlockHead Value)
    (hbody : ∀ w', Extends w w' → body.Spares apart w') :
    (block id h body).Spares apart w := by
  refine (spares_liftM _).bind fun opener w₁ _ h₁ => ?_
  refine (openBlock_spares hid _ _).bind fun start w₂ _ h₂ => ?_
  have hinner := ((hbody w₂ (h₁.trans h₂)).onFault hid
    fun b => { b with stream := b.stream.take start }).ensure hid
      fun b => { b with openConditions := b.openConditions.dropLast }
  exact hinner.bind fun _ _ _ _ => spares_change hid _

theorem takeOver_spares (hid : id ∉ apart) (hother : other ∉ apart) :
    (takeOver id other).Spares apart w := by
  refine (spares_read hother _).bind fun b _ _ _ => (spares_read hid _).bind fun q _ _ _ => ?_
  refine spares_ite (spares_stop _) ?_
  refine (spares_change hid _).bind fun _ _ _ _ => (spares_read hother _).bind fun n _ _ _ => ?_
  exact spares_logged _

/-- A splice spares what building the other builder spares. -/
theorem splice_spares {build : Building} {context : Value} (hid : id ∉ apart)
    (hother : other ∉ apart)
    (hbuild : ∀ w', Extends w w' → (build other context).Spares apart w') :
    (splice build id other context).Spares apart w := by
  refine (spares_change hother _).bind fun _ w₁ _ h₁ => ?_
  refine (spares_read hother _).bind fun before w₂ _ h₂ => ?_
  refine (spares_read hid _).bind fun taker w₃ _ h₃ => ?_
  refine (spares_change hother _).bind fun _ w₄ _ h₄ => ?_
  have hinner := (hbuild w₄ (h₁.trans (h₂.trans (h₃.trans h₄)))).ensure hother (giveBack before)
  exact hinner.bind fun _ _ _ _ => takeOver_spares hid hother

/-- The bench of a new builder. -/
def freshBench (kind : BuilderKind) (equipped strict : Bool) (fn : Value) (args : List Value)
    (program : Program) (w : Workshop) : Bench :=
  ⟨{ kind, airframe := if equipped then w.airframe else none, strict, fn, args }, program⟩

/-- A new target is put behind the benches that are there. -/
theorem run_fresh (kind : BuilderKind) (equipped strict : Bool) (fn args : Value)
    (program : Program) (w : Workshop) :
    (find (.fresh kind equipped strict fn args program)).run w =
      match (if kind.asks then args.itemsIfSet else .ok [] : Except Fault (List Value)) with
      | .ok xs =>
        (.ok w.benches.length, w.withBench (freshBench kind equipped strict fn xs program w))
      | .error e => (.error e, w) := by
  rw [find]
  by_cases ha : kind.asks = true
  · simp only [ha, if_true]
    cases args.itemsIfSet <;> rfl
  · simp only [ha]
    rfl

theorem bench_withBench_self (n : Bench) (w : Workshop) :
    (w.withBench n).bench w.benches.length = n := by
  rw [bench, withBench, List.getElem?_concat_length]
  rfl

/-- One more bench stands where there was none, and changes no other. -/
theorem bench_withBench_cases (n : Bench) (w : Workshop) (i : BuilderId) :
    (w.withBench n).bench i = w.bench i ∨ w.bench i = {} ∧ (w.withBench n).bench i = n := by
  rcases Nat.lt_trichotomy i w.benches.length with hi | rfl | hi
  · refine Or.inl ?_
    rw [bench, bench, withBench, List.getElem?_append_left hi]
  · exact Or.inr ⟨bench_of_length_le (Nat.le_refl _), bench_withBench_self n w⟩
  · refine Or.inl ?_
    rw [bench_of_length_le (Nat.le_of_lt hi), bench_of_length_le]
    rw [withBench, List.length_append]
    exact hi

/-- A named target is the builder that has the name. -/
theorem run_named (n : String) (w : Workshop) :
    (find (.named n)).run w =
      match w.names.lookup n with
      | some id => (.ok id, w)
      | none => (.error (.missingKey n), w) := by
  rw [find, run_state_bind]
  cases w.names.lookup n <;> rfl

/-- Finding a target that only adds spares builders, and gives a builder that only adds and
is none of them. -/
theorem find_spares {t : Target} (hs : Supplies names apart w) (ht : t.onlyAdds names = true)
    (hin : ∀ i ∈ apart, i < w.benches.length) :
    (find t).Spares apart w ∧ ∀ id w', (find t).run w = (.ok id, w') →
      id < w'.benches.length ∧ id ∉ apart ∧
        Program.onlyAdds names (w'.bench id).program = true := by
  cases t with
  | named n =>
      rw [Target.onlyAdds, List.contains_iff_mem] at ht
      cases hl : w.names.lookup n with
      | none =>
          refine ⟨spares_of_run (r := .error (.missingKey n)) fun g => ?_, fun id w' h => ?_⟩
          · rw [run_named, names_override, hl]
          · rw [run_named, hl] at h
            cases h
      | some c =>
          refine ⟨spares_of_run (r := .ok c) fun g => ?_, fun id w' h => ?_⟩
          · rw [run_named, names_override, hl]
          · rw [run_named, hl] at h
            cases h
            exact hs n ht c hl
  | fresh kind equipped strict fn args program =>
      rw [Target.onlyAdds] at ht
      cases hx : (if kind.asks then args.itemsIfSet else .ok [] : Except Fault (List Value)) with
      | error e =>
          refine ⟨spares_of_run (r := .error e) fun g => ?_, fun id w' h => ?_⟩
          · rw [run_fresh, hx]
          · rw [run_fresh, hx] at h
            cases h
      | ok xs =>
          refine ⟨⟨?_, fun g => ?_⟩, fun id w' h => ?_⟩
          · rw [run_fresh, hx]
            exact extends_withBench _ w
          · rw [run_fresh, run_fresh, hx]
            dsimp only
            rw [length_override, withBench_override hin]
            rfl
          · rw [run_fresh, hx] at h
            cases h
            refine ⟨?_, fun hmem => Nat.lt_irrefl _ (hin _ hmem), ?_⟩
            · rw [withBench, List.length_append]
              exact Nat.lt_succ_self _
            · rw [bench_withBench_self]
              exact ht

end Workshop

/-! ## Programs and builds -/

open Workshop

variable {build : Building} {names : List String} {apart : List BuilderId} {id : BuilderId}
  {context : Value} {w : Workshop}

/-- Whether building a builder that only adds spares others. -/
def Building.Sparing (build : Building) (names : List String) : Prop :=
  ∀ (apart : List BuilderId) (id : BuilderId) (context : Value) (w : Workshop),
    (∀ i ∈ apart, i < w.benches.length) → Supplies names apart w →
      id < w.benches.length → id ∉ apart → Program.onlyAdds names (w.bench id).program = true →
        (build id context).Spares apart w

mutual

/-- A step that only adds spares the builders apart. -/
theorem Step.run_spares (hb : build.Sparing names) : ∀ (s : Step) {apart : List BuilderId}
    {id : BuilderId} {context : Value} {w : Workshop}, s.onlyAdds names = true →
      (∀ i ∈ apart, i < w.benches.length) → Supplies names apart w → id ∉ apart →
        (s.run build id context).Spares apart w
  | .call c, apart, id, context, w => by
      intro _ _ _ hid
      rw [Step.run]
      exact (spares_liftM _).bind fun c _ _ _ => call_spares hid c
  | .block head body, apart, id, context, w => by
      intro hs hin hsup hid
      rw [Step.onlyAdds] at hs
      rw [Step.run]
      refine (spares_liftM _).bind fun h w₁ _ h₁ => ?_
      refine (block_spares hid h fun w₂ h₂ => ?_).bind fun _ _ _ _ => spares_pure _
      have he := h₁.trans h₂
      exact Program.run_spares hb body hs (fun i hi => Nat.lt_of_lt_of_le (hin i hi) he.grows)
        (hsup.extend he) hid
  | .splice target c, apart, id, context, w => by
      intro hs hin hsup hid
      rw [Step.onlyAdds] at hs
      rw [Step.run]
      obtain ⟨hfind, hfound⟩ := find_spares hsup hs hin
      refine hfind.bind fun other w₁ hr h₁ => ?_
      obtain ⟨hlt, hother, hadds⟩ := hfound other w₁ hr
      refine (spares_liftM _).bind fun context' w₂ _ h₂ => ?_
      refine (splice_spares hid hother fun w₃ h₃ => ?_).bind fun _ _ _ _ => spares_pure _
      have he := h₂.trans h₃
      have hin' : ∀ i ∈ apart, i < w₃.benches.length := fun i hi =>
        Nat.lt_of_lt_of_le (hin i hi) (h₁.trans he).grows
      refine hb apart other context' w₃ hin' (hsup.extend (h₁.trans he))
        (Nat.lt_of_lt_of_le hlt he.grows) hother ?_
      rw [he.programs other hlt]
      exact hadds
  | .raise f, apart, id, context, w => by
      intro _ _ _ _
      rw [Step.run]
      exact spares_stop f
  | .build _, _, _, _, _ => nofun
  | .attempt _, _, _, _, _ => nofun
  | .on _ _, _, _, _, _ => nofun
  | .inspect _, _, _, _, _ => nofun
termination_by structural s => s

/-- So do steps in order. -/
theorem Program.run_spares (hb : build.Sparing names) : ∀ (ss : List Step)
    {apart : List BuilderId} {id : BuilderId} {context : Value} {w : Workshop},
      Program.onlyAdds names ss = true → (∀ i ∈ apart, i < w.benches.length) →
        Supplies names apart w → id ∉ apart → (Program.run build id context ss).Spares apart w
  | [], apart, id, context, w => by
      intro _ _ _ _
      rw [Program.run]
      exact spares_pure ()
  | s :: ss, apart, id, context, w => by
      intro hs hin hsup hid
      rw [Program.onlyAdds, Bool.and_eq_true] at hs
      obtain ⟨hs, hss⟩ := hs
      rw [Program.run]
      refine (Step.run_spares hb s hs hin hsup hid).bind fun _ w' _ he => ?_
      exact Program.run_spares hb ss hss (fun i hi => Nat.lt_of_lt_of_le (hin i hi) he.grows)
        (hsup.extend he) hid
termination_by structural ss => ss

end

/-- Building a builder that only adds spares others, to whatever depth. -/
theorem Builder.build_spares (names : List String) (depth : Nat) :
    (Builder.build depth).Sparing names := by
  induction depth with
  | zero =>
      intro apart id context w _ _ _ _ _
      exact spares_stop _
  | succ depth ih =>
      intro apart id context w hin hsup _ hid hadds
      have hprogram : (Program.run (Builder.build depth) id context (w.bench id).program).Spares
          apart w := Program.run_spares ih _ hadds hin hsup hid
      have hkind (v : Workshop) (hv : v.bench id = w.bench id) :
          (v.builder id).kind = (w.builder id).kind := by
        rw [Workshop.builder, Workshop.builder, hv]
      cases hk : (w.builder id).kind with
      | plain =>
          refine .of_bench (spares_stop (.noBuild BuilderKind.plain.name)) hid fun v hv => ?_
          rw [run_build, hkind v hv, hk]
          rfl
      | setup =>
          refine .of_bench (spares_change hid fun b => b.append b.setupCommands) hid fun v hv => ?_
          rw [run_build, hkind v hv, hk]
          rfl
      | teardown =>
          refine .of_bench (spares_change hid (·.append teardownCommands)) hid fun v hv => ?_
          rw [run_build, hkind v hv, hk]
          rfl
      | query =>
          refine .of_bench (addOwnQuery_spares hid) hid fun v hv => ?_
          rw [run_build, hkind v hv, hk]
      | script =>
          refine .of_bench hprogram hid fun v hv => ?_
          rw [run_build, hkind v hv, hk, hv]
      | scriptQuery =>
          refine .of_bench (hprogram.bind fun _ _ _ _ => addOwnQuery_spares hid) hid fun v hv => ?_
          rw [run_build, hkind v hv, hk, hv]

end Cockpit
