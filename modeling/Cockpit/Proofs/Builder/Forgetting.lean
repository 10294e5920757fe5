import Cockpit.Proofs.Builder.Twins

/-!
# Cleared builders

A builder that is cleared has nothing of its past.  `Workshop.cleared_forgets` compares a workshop
of new builders with the workshop at some place of what it has been used for since, where runs may
have failed, and blocks and splices may have been left by faults.  If no call on a builder is
in progress there, it does after being cleared what the new one does.  Sub-builders that it splices
need not be cleared for it.

Two things are left that tell builders apart.  A splice runs with the strictness of the builder
that takes the commands, so it matters for what a sub-builder contributes.  And a call that is
made directly on a sub-builder, which is not being built, meets what is in its stream, unless the
sub-builder was cleared as well.  `Workshop.surroundings_matter` has an example of each.
-/

namespace Cockpit

open Op

namespace Workshop

variable {v w t u : Workshop} {id other taker : BuilderId} {busy busy' : List BuilderId}

/-! ## The same on a builder -/

/-- Whether a workshop has only new builders, and names only for these. -/
structure IsNew (w : Workshop) : Prop where
  builders : ∀ n ∈ w.benches, n.builder.stream = [] ∧ n.builder.openConditions = []
  named : w.NamesThere

theorem IsNew.stream_eq (h : w.IsNew) (id : BuilderId) : (w.builder id).stream = [] := by
  rw [builder, bench]
  cases hn : w.benches[id]? with
  | none => rfl
  | some n => exact (h.builders n (List.mem_of_getElem? hn)).1

/-- Whether two operations, each in its workshop, end in the same way, leave a builder with the
same commands, tell the same records and note the same faults of attempts. -/
structure SameOn (id : BuilderId) (x : Op Workshop Unit) (v : Workshop) (y : Op Workshop Unit)
    (w : Workshop) : Prop where
  outcome : (y.run w).1 = (x.run v).1
  commands : ((y.run w).2.builder id).stream = ((x.run v).2.builder id).stream
  told : ∃ rs, (x.run v).2.journal = v.journal.addAll rs ∧
    (y.run w).2.journal = w.journal.addAll rs
  noted : ∃ ns, (x.run v).2.caught = v.caught ++ ns ∧ (y.run w).2.caught = w.caught ++ ns

theorem sameOn_of_echoes {p : Pairing} {x y : Op Workshop Unit} (hid : id < p.shared)
    (h : x.Echoes p [id] (fun r => r) y p.first p.second) : SameOn id x p.first y p.second where
  outcome := by
    rw [h.outcome]
    cases (x.run p.first).1 <;> rfl
  commands := by
    have hbuilder := h.twins.owned id (Or.inl hid) (Or.inl List.mem_cons_self)
    rw [Pairing.place_of_shared hid] at hbuilder
    rw [hbuilder]
  told := h.twins.told
  noted := h.twins.noted

/-- An operation does the same as another one that it runs as, in a workshop that has been told and
has noted as much. -/
theorem SameOn.of_run {x y y' : Op Workshop Unit} (h : SameOn id x v y u)
    (hrun : y'.run w = y.run u) (hjournal : u.journal = w.journal) (hcaught : u.caught = w.caught) :
    SameOn id x v y' w where
  outcome := by rw [hrun, h.outcome]
  commands := by rw [hrun, h.commands]
  told := by rw [hrun, ← hjournal]; exact h.told
  noted := by rw [hrun, ← hcaught]; exact h.noted

/-! ## Workshops of one origin -/

/-- Two workshops that a workshop has become. -/
def Unmarked.pairing (hv : Unmarked busy w v) (hu : Unmarked busy' w u) (aliens : List BuilderId)
    (level : Bool) : Pairing where
  first := v
  second := u
  shared := w.benches.length
  aliens := aliens
  level := level
  le_first := hv.extended.grows
  le_second := hu.extended.grows

/-- They are twins, where the owned builders are the same in both. -/
theorem Unmarked.twins (hw : w.NamesThere) (hv : Unmarked busy w v) (hu : Unmarked busy' w u)
    (aliens : List BuilderId) (level : Bool)
    (heven : ∀ i ∈ busy ++ busy', i ∉ aliens → (u.builder i).strict = (v.builder i).strict)
    {owned : List BuilderId} (hsame : ∀ i ∈ owned, u.builder i = v.builder i) :
    Twins (hv.pairing hu aliens level) owned v u := by
  have hplace {i : Nat} (hi : i < w.benches.length) : (hv.pairing hu aliens level).place i = i :=
    Pairing.place_of_shared hi
  have hnew {i : Nat} (hi : v.benches.length ≤ i) :
      u.bench ((hv.pairing hu aliens level).place i) = v.bench i := by
    rw [Pairing.place_of_made hi, bench_of_length_le hi, bench_of_length_le]
    exact Nat.le_add_left _ _
  constructor
  case airframe => exact hu.airframe.trans hv.airframe.symm
  case names => exact hu.extended.names.trans hv.extended.names.symm
  case named =>
      intro e he
      exact hw e (hv.extended.names ▸ he)
  case told => exact ⟨[], rfl, rfl⟩
  case noted => exact ⟨[], (List.append_nil _).symm, (List.append_nil _).symm⟩
  case sizes => exact ⟨0, rfl, rfl⟩
  case programs =>
      rintro i (hi | hi)
      · rw [hplace hi]
        exact (hu.extended.programs i hi).trans (hv.extended.programs i hi).symm
      · exact congrArg Bench.program (hnew hi)
  case bare =>
      rintro i (hi | hi)
      · rw [hplace hi]
        exact (hu.bare i hi).trans (hv.bare i hi).symm
      · exact congrArg (fun n : Bench => n.builder.bare) (hnew hi)
  case even =>
      rintro i (hi | hi) hn
      · rw [hplace hi]
        -- A builder on which no call is in progress in either is as strict as in the first place.
        by_cases hin : i ∈ busy ++ busy'
        · exact heven i hin hn
        · obtain ⟨hidle, hidle'⟩ := not_or.mp (mt List.mem_append.mpr hin)
          have hclear := (hu.builders i hi hidle').trans (hv.builders i hi hidle).symm
          have hstrict := congrArg Builder.strict hclear
          exact hstrict
      · exact congrArg (fun n : Bench => n.builder.strict) (hnew hi)
  case owned =>
      rintro i (hi | hi) ho
      · rw [hplace hi]
        rcases ho with hin | hmade
        · exact hsame i hin
        · exact absurd (Nat.lt_of_lt_of_le hi hv.extended.grows) (Nat.not_lt_of_le hmade)
      · exact congrArg Bench.builder (hnew hi)

/-- The builders on which calls are in progress at one of two places, and which are not equally
strict at both. -/
def Standing.uneven (s s' : Standing) : List BuilderId :=
  (s.busy ++ s'.busy).filter fun i =>
    (s.workshop.builder i).strict != (s'.workshop.builder i).strict

theorem strict_eq_of_notMem_uneven {s s' : Standing} {i : BuilderId} (hin : i ∈ s.busy ++ s'.busy)
    (hn : i ∉ s.uneven s') : (s'.workshop.builder i).strict = (s.workshop.builder i).strict := by
  by_contra hne
  exact hn (List.mem_filter.mpr ⟨hin, bne_iff_ne.mpr fun he => hne he.symm⟩)

/-! ## What is forgotten -/

/-- Clearing comes before what is done with the cleared builder. -/
theorem run_clear_cons (build : Building) (id : BuilderId) (context : Value) (steps : Program)
    (w : Workshop) :
    (Program.run build id context (.call .clear :: steps)).run w =
      (Program.run build id context steps).run (w.changeBuilder id Builder.clear) := by
  rw [Program.run, Step.run]
  rfl

/-- The workshop with some builders cleared. -/
def clearAll (ids : List BuilderId) (w : Workshop) : Workshop :=
  ids.foldr (changeBuilder · Builder.clear) w

theorem clearAll_cons (id : BuilderId) (ids : List BuilderId) (w : Workshop) :
    w.clearAll (id :: ids) = (w.clearAll ids).changeBuilder id Builder.clear := rfl

theorem builder_clearAll (ids : List BuilderId) (i : BuilderId) (w : Workshop) :
    (w.clearAll ids).builder i = if i ∈ ids then (w.builder i).clear else w.builder i := by
  induction ids with
  | nil => rfl
  | cons id ids ih =>
      rw [clearAll_cons]
      by_cases he : i = id
      · subst he
        rw [builder_cleared, ih, if_pos List.mem_cons_self]
        split <;> rfl
      · rw [builder_changeBuilder_of_ne _ he, ih]
        simp only [List.mem_cons, he, false_or]

theorem unmarked_clearAll (ids : List BuilderId) (w : Workshop) :
    Unmarked busy w (w.clearAll ids) := by
  induction ids with
  | nil => exact .refl busy w
  | cons id ids ih => exact ih.trans (unmarked_change rfl)

/-- How strict a builder is that builds for another one. -/
def strictFor (taker other : BuilderId) (w : Workshop) : Bool :=
  (w.builder other).strict || (w.builder taker).strict

/-- Builders on loan are the same if they were made alike, and the takers have the same open
conditions and the splices the same strictness. -/
theorem builder_lent_congr {taker taker' : BuilderId} (hother : other < v.benches.length)
    (hother' : other < u.benches.length) (hbare : (u.builder other).bare = (v.builder other).bare)
    (hconditions : (u.builder taker').openConditions = (v.builder taker).openConditions)
    (hstrict : u.strictFor taker' other = v.strictFor taker other) :
    (u.lent taker' other).builder other = (v.lent taker other).builder other := by
  rw [lent_eq_change, lent_eq_change, builder_changeBuilder_self hother,
    builder_changeBuilder_self hother', lend_eq, lend_eq, hbare, hconditions]
  exact congrArg (fun strict => { (v.builder other).bare with
    openConditions := (v.builder taker).openConditions, strict := strict }) hstrict

section

variable {s s' : Standing} (hw : w.IsNew) (hs : Unmarked s.busy w s.workshop)
include hw hs

/-- Where no calls on some builders are in progress, one of them does after all were cleared what it
did when they were new. -/
theorem Unmarked.cleared_sameOn {deep : Nat} {others : List BuilderId} {context : Value}
    {steps : Program} (hidle : ∀ i ∈ id :: others, i < w.benches.length ∧ i ∉ s.busy)
    (htouches : ∀ t ∈ Program.touches (Builder.build deep) (Builder.touches deep) (id :: others) id
      context steps w, t.StaysOut (Standing.uneven ⟨[], w⟩ s) w.benches.length) :
    SameOn id (Program.run (Builder.build deep) id context steps) w
      (Program.run (Builder.build deep) id context (.call .clear :: steps))
      (s.workshop.clearAll others) := by
  let cleared := s.workshop.clearAll (id :: others)
  have hcleared : Unmarked s.busy w cleared := hs.trans (unmarked_clearAll _ _)
  have hsame : ∀ i ∈ id :: others, cleared.builder i = w.builder i := by
    intro i hi
    rw [builder_clearAll, if_pos hi, hs.builders i (hidle i hi).1 (hidle i hi).2, Builder.clear,
      ← hw.stream_eq i]
  have heven : ∀ i ∈ [] ++ s.busy, i ∉ Standing.uneven ⟨[], w⟩ s →
      (cleared.builder i).strict = (w.builder i).strict := by
    intro i hin hn
    have hne : i ∉ id :: others := fun hi => (hidle i hi).2 hin
    rw [builder_clearAll, if_neg hne]
    exact strict_eq_of_notMem_uneven (s := ⟨[], w⟩) hin hn
  have hid : id < w.benches.length := (hidle id List.mem_cons_self).1
  have htwins := (Unmarked.refl [] w).twins hw.named hcleared _ true heven hsame
  have hechoes := Program.run_echoes (Builder.build_echoes (Nat.le_refl deep) fun _ => rfl) steps
    htwins (Or.inl hid) List.mem_cons_self fun t ht => ⟨htouches t ht, Or.inl rfl⟩
  rw [Pairing.place_of_shared hid] at hechoes
  exact (sameOn_of_echoes hid (hechoes.mono (List.cons_subset_cons id (List.nil_subset _)))).of_run
    (run_clear_cons ..) rfl rfl

/-- A builder builds alike for two others, at two places, with the same open conditions, as strict
and in the same context. -/
theorem Unmarked.lent_sameOn (hs' : Unmarked s'.busy w s'.workshop) {deep deep' : Nat}
    {taker taker' : BuilderId} {context : Value} (hdeep : deep ≤ deep')
    (hother : other < w.benches.length)
    (hconditions : (s'.workshop.builder taker').openConditions =
      (s.workshop.builder taker).openConditions)
    (hstrict : s'.workshop.strictFor taker' other = s.workshop.strictFor taker other)
    (htouches : ∀ t ∈ Builder.touches deep [other] other context (s.workshop.lent taker other),
      t.StaysOut (s.uneven s') s.workshop.benches.length ∧ t.isTooDeep = false) :
    SameOn other (Builder.build deep other context) (s.workshop.lent taker other)
      (Builder.build deep' other context) (s'.workshop.lent taker' other) := by
  have hlent {s : Standing} (hs : Unmarked s.busy w s.workshop) (taker : BuilderId) :
      Unmarked (other :: s.busy) w (s.workshop.lent taker other) :=
    (hs.mono (List.subset_cons_self _ _)).trans (unmarked_lent List.mem_cons_self taker _)
  have hsame : ∀ i ∈ [other], (s'.workshop.lent taker' other).builder i =
      (s.workshop.lent taker other).builder i := by
    intro i hi
    rw [List.mem_singleton.mp hi]
    exact builder_lent_congr (Nat.lt_of_lt_of_le hother hs.extended.grows)
      (Nat.lt_of_lt_of_le hother hs'.extended.grows)
      ((hs'.bare other hother).trans (hs.bare other hother).symm) hconditions hstrict
  have heven : ∀ i ∈ (other :: s.busy) ++ (other :: s'.busy), i ∉ s.uneven s' →
      ((s'.workshop.lent taker' other).builder i).strict =
        ((s.workshop.lent taker other).builder i).strict := by
    intro i hin hn
    by_cases he : i = other
    · rw [he, hsame other (List.mem_singleton_self other)]
    · rw [builder_lent_of_ne he, builder_lent_of_ne he]
      refine strict_eq_of_notMem_uneven ?_ hn
      simpa [he] using hin
  have htwins := (hlent hs taker).twins hw.named (hlent hs' taker') _ false heven hsame
  have hlength : (s.workshop.lent taker other).benches.length = s.workshop.benches.length := by
    rw [lent, length_changeBuilder, length_changeBuilder]
  rw [← hlength] at htouches
  have hechoes := Builder.build_echoes hdeep (fun hl => absurd hl Bool.false_ne_true) [other]
    other context _ _ htwins (Or.inl hother) (List.mem_singleton_self other)
    fun t ht => ⟨(htouches t ht).1, Or.inr (htouches t ht).2⟩
  rw [Pairing.place_of_shared hother] at hechoes
  exact sameOn_of_echoes hother hechoes

end

/-- Builders are used in whatever way, though no strictness is set, and `s` is a place in what is
done with them or after it.

If no calls on a builder and some others are in progress there, and these others are cleared,
a program that is run on the builder after it was cleared ends in the same way, leaves it with the
same commands, tells the same records and notes the same faults as the program does on the new
builder among new ones.  The program makes calls on still other builders only while these are being
built, or if it has made them.  If any builders are being built at `s`, and are strict there for
others, the program splices none of these from a lenient one.

Let a builder be spliced at two places, with the same open conditions, the same strictness and the
same context.  Then it comes to have the same commands for the two that take them, though
builders may be nested less deep at one of the places. -/
theorem cleared_forgets (depth : Nat) {w : Workshop} (hw : w.IsNew) {uses : List Use}
    (hsets : ∀ t ∈ touchesOfUses depth uses w, t.isSetting = false) {s : Standing}
    (hs : Touch.stands s ∈ touchesOfUses depth uses w) :
    (∀ (deep : Nat) (id : BuilderId) (others : List BuilderId) (context : Value)
      (steps : Program), (∀ i ∈ id :: others, i < w.benches.length ∧ i ∉ s.busy) →
      (∀ t ∈ Program.touches (Builder.build deep) (Builder.touches deep) (id :: others) id context
        steps w, t.StaysOut (Standing.uneven ⟨[], w⟩ s) w.benches.length) →
      SameOn id (Program.run (Builder.build deep) id context steps) w
        (Program.run (Builder.build deep) id context (.call .clear :: steps))
        (s.workshop.clearAll others)) ∧
    ∀ s' : Standing, Touch.stands s' ∈ touchesOfUses depth uses w →
      ∀ (deep deep' : Nat) (other taker taker' : BuilderId) (context : Value), deep ≤ deep' →
      other < w.benches.length →
      (s'.workshop.builder taker').openConditions = (s.workshop.builder taker).openConditions →
      s'.workshop.strictFor taker' other = s.workshop.strictFor taker other →
      (∀ t ∈ Builder.touches deep [other] other context (s.workshop.lent taker other),
        t.StaysOut (s.uneven s') s.workshop.benches.length ∧ t.isTooDeep = false) →
      SameOn other (Builder.build deep other context) (s.workshop.lent taker other)
        (Builder.build deep' other context) (s'.workshop.lent taker' other) := by
  have hmarks {s : Standing} (hs : Touch.stands s ∈ touchesOfUses depth uses w) :
      Unmarked s.busy w s.workshop := ((afterUses_tidies depth uses w hsets).stands s hs).2
  constructor
  · intro deep id others context steps hidle htouches
    exact (hmarks hs).cleared_sameOn hw hidle htouches
  · intro s' hs' deep deep' other taker taker' context hdeep hother hconditions hstrict htouches
    exact (hmarks hs).lent_sameOn hw (hmarks hs') hdeep hother hconditions hstrict htouches

/-- A builder, and two that it splices, of which one splices the other. -/
def rack : Workshop where
  benches :=
    [⟨{}, []⟩,
      ⟨{ kind := .script }, [.call (.marker (.value (.text "course"))),
        .call (.wait (.context "delay"))]⟩,
      ⟨{ kind := .script }, [.splice (.named "course") (.value (.object [("delay", .int 5)]))]⟩]
  names := [("course", 1), ("page", 2)]

/-- A block that splices both of the others, the one with a context. -/
def setting (context : Value) : Step :=
  .block ⟨.onceIf, .value (.text "ready"), .value (.bool true), .value .null, .value .null⟩
    [.splice (.named "page") (.value .null), .splice (.named "course") (.value context)]

/-- A query on the innermost builder. -/
def asking : Step :=
  .on (.named "course") (.call (.query (.value (.text "heading")) (.value .null)))

/-- A block that is left by a fault of the last splice, and a query on a builder that was
spliced. -/
def abandoned : List Use :=
  [⟨0, .null, [.call (.marker (.value (.text "old"))), setting (.text "soon")]⟩,
    ⟨0, .null, [asking]⟩]

theorem cleared_forgets_abandoned :
    let used := afterUses 3 abandoned rack
    let again := (Program.run (Builder.build 3) 0 .null
      [.call .clear, setting (.object [("delay", .int 5)]), asking]).run (used.clearAll [1])
    (used.builder 0).stream = [.marker (.text "old")] ∧
      (used.builder 1).stream = [.marker (.text "course"), .query (.text "heading") []] ∧
      again.1 = .ok () ∧
      (again.2.builder 0).stream = [.openIf (.text "ready") (.bool true) [],
        .marker (.text "course"), .wait (.int 5), .marker (.text "course"), .wait (.int 5),
        .closeIf (.text "ready")] ∧
      -- inside the block, and inside the builder that it splices
      ∃ s s' : Standing, s.busy = [0] ∧ s'.busy = [2, 0] ∧
        (s'.workshop.builder 2).openConditions = [.text "ready"] ∧
        (((Builder.build 3 1 (.object [("delay", .int 5)])).run (s'.workshop.lent 2 1)).2.builder
            1).stream =
          (((Builder.build 1 1 (.object [("delay", .int 5)])).run (s.workshop.lent 0 1)).2.builder
            1).stream := by
  have hnames : ∀ e ∈ rack.names, e.2 < rack.benches.length := by decide
  have hnew : rack.IsNew := ⟨by decide, hnames⟩
  have hsets : ∀ t ∈ touchesOfUses 3 abandoned rack, t.isSetting = false := by decide
  have hagain := (cleared_forgets 3 hnew hsets (stands_afterUses 3 abandoned rack)).1 3 0 [1] .null
    [setting (.object [("delay", .int 5)]), asking] (by decide) (by decide)
  have hs : Touch.stands _ ∈ touchesOfUses 3 abandoned rack := List.mem_of_getElem? (i := 9) rfl
  have hs' : Touch.stands _ ∈ touchesOfUses 3 abandoned rack := List.mem_of_getElem? (i := 5) rfl
  have htwice := (cleared_forgets 3 hnew hsets hs).2 _ hs' 1 3 1 0 2 (.object [("delay", .int 5)])
    (by decide) (by decide) rfl rfl (by decide)
  exact ⟨rfl, rfl, hagain.outcome, hagain.commands, _, _, rfl, rfl, rfl, htwice.commands⟩

/-! ## What is not forgotten -/

/-- A lenient builder, a strict one, and one that asks for an action that is missing. -/
def counters : Workshop :=
  let airframe : Airframe :=
    { name := .text "F-16", devices := [{ id := .int 17, name := .text "UFC" }] }
  let ufc : DeviceSource Operand := .named (.value (.text "UFC"))
  { airframe := some airframe
    benches :=
      [⟨{ airframe := some airframe }, []⟩,
        ⟨{ airframe := some airframe, strict := true }, []⟩,
        ⟨{ kind := .script, airframe := some airframe },
          [.call (.action ufc (.value (.text "NOPE")) (.value (.int 0))),
            .call (.wait (.value (.int 100)))]⟩]
    names := [("course", 2)] }

/-- Spliced with the same context where no conditions are open, a builder contributes a command to
a lenient builder and fails in a strict one.  And a query that was made on it before makes
a difference to one that is made on it after another builder was cleared. -/
theorem surroundings_matter :
    let lenient := (splice (Builder.build 3) 0 2 .null).run counters
    let strict := (splice (Builder.build 3) 1 2 .null).run counters
    let anew := (Program.run (Builder.build 3) 0 .null [asking]).run counters
    let again := (Program.run (Builder.build 3) 0 .null [.call .clear, asking]).run
      (afterUses 3 [⟨0, .null, [asking]⟩] counters)
    counters.IsNew ∧
      (counters.builder 0).openConditions = (counters.builder 1).openConditions ∧
      lenient.1 = .ok () ∧ (lenient.2.builder 0).stream = [.wait (.int 100)] ∧
      strict.1 = .error (.unknownAction (.text "UFC") ["NOPE"]) ∧
      (strict.2.builder 1).stream = [] ∧
      anew.1 = .ok () ∧ again.1 = .error (.secondQuery (.text "heading")) := by
  have hnames : ∀ e ∈ counters.names, e.2 < counters.benches.length := by decide
  exact ⟨⟨by decide, hnames⟩, rfl, rfl, rfl, rfl, rfl, rfl, rfl⟩

end Workshop

end Cockpit
