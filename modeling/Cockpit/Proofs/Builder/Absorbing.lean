import Cockpit.Proofs.Builder.OneQuery
import Cockpit.Proofs.Builder.Spares

/-!
# Calls on a builder that has absorbed another one

`a.absorb b` is the builder `a` after the commands of `b`, with the conditions that are open
for `b` and with its strictness.  It is what `a` would be if the calls on `b` had been made on
`a` instead.

A call that only appends commands appends the same ones to both, given one airframe
(`Builder.apply_absorb`).  The exception is a query, when `a` has one already: `b` takes it,
but `a.absorb b` does not.
-/

namespace Cockpit

namespace Op

variable {σ α β : Type}

/-- Two operations do the same, or both fail. -/
def Alike (x y : Op σ α) : Prop :=
  ∀ s, x.run s = y.run s ∨ ∃ e t e' t', x.run s = (.error e, t) ∧ y.run s = (.error e', t')

theorem Alike.refl (x : Op σ α) : x.Alike x := fun _ => Or.inl rfl

theorem Alike.bind {x y : Op σ α} {f g : α → Op σ β} (hx : x.Alike y)
    (hf : ∀ a, (f a).Alike (g a)) : (x >>= f).Alike (y >>= g) := by
  intro s
  rcases hx s with h | ⟨e, t, e', t', h, h'⟩
  · rcases hr : x.run s with ⟨e | a, t⟩
    · exact Or.inl ((run_bind_error hr).trans (run_bind_error (h ▸ hr)).symm)
    · rw [run_bind_ok hr, run_bind_ok (h ▸ hr)]
      exact hf a t
  · exact Or.inr ⟨e, t, e', t', run_bind_error h, run_bind_error h'⟩

end Op

open Op

namespace Builder

variable {a b : Builder} {c : Call Value} {cs : Stream}

/-- A builder with the commands of another one behind its own, and its conditions and
strictness. -/
def absorb (a b : Builder) : Builder :=
  { a with stream := a.stream ++ b.stream, openConditions := b.openConditions, strict := b.strict }

theorem absorb_append (a b : Builder) (cs : Stream) :
    a.absorb (b.append cs) = (a.absorb b).append cs := by
  simp only [absorb, append, List.append_assoc]

/-! ## What the commands of a call depend on -/

/-- Builders with one airframe find the same devices, though their faults name their kinds. -/
theorem device_alike (h : a.airframe = b.airframe) (source : DeviceSource Value) :
    (liftM (a.device source) : Op Log.Journal Device).Alike (liftM (b.device source)) := by
  cases source with
  | held d => exact .refl _
  | named name =>
      intro j
      rw [run_liftM, run_liftM, device, device, lookUp, lookUp, h]
      cases b.airframe with
      | none => exact Or.inr ⟨_, _, _, _, rfl, rfl⟩
      | some r => exact Or.inl rfl

theorem checkName_congr (h : a.strict = b.strict) (d : Device) (n : Value) :
    a.checkName d n = b.checkName d n := by
  rw [checkName, h, checkName]

theorem pressNamed_congr (h : a.strict = b.strict) (d : Device) (n w : Value) :
    a.pressNamed d n w = b.pressNamed d n w := by
  rw [pressNamed, checkName_congr h, pressNamed]

theorem pressAll_congr (h : a.strict = b.strict) (d : Device) (ns : List Value) :
    a.pressAll d ns = b.pressAll d ns := by
  induction ns with
  | nil => rfl
  | cons n ns ih => rw [pressAll, pressAll, pressNamed_congr h, ih]

theorem actionCommands_congr (h : a.strict = b.strict) (d : Device) (ns : List Value)
    (w : Value) : a.actionCommands d ns w = b.actionCommands d ns w := by
  rw [actionCommands, pressAll_congr h, actionCommands]

/-- The commands of a call that adds no query depend on the airframe and the strictness. -/
theorem commandsOf_alike (hair : a.airframe = b.airframe) (hstrict : a.strict = b.strict)
    (c : Call Value) (hc : ∀ fn args, c ≠ .query fn args) :
    (a.commandsOf c).Alike (b.commandsOf c) := by
  have hdevice := device_alike hair
  have hactions := actionCommands_congr hstrict
  cases c with
  | action d n w =>
      refine (hdevice d).bind fun d => ?_
      rw [pressNamed_congr hstrict]
      exact .refl _
  | customAction d n x y t w =>
      refine (hdevice d).bind fun d => ?_
      rw [checkName_congr hstrict]
      exact .refl _
  | actions d ns ps w =>
      refine (hdevice d).bind fun d => ?_
      simp only [hactions]
      exact .refl _
  | repeatAction d n c w =>
      refine (hdevice d).bind fun d => ?_
      simp only [hactions]
      exact .refl _
  | typeText d v w =>
      refine (hdevice d).bind fun d => ?_
      simp only [hactions]
      exact .refl _
  | typeCoordinate d v w =>
      refine (hdevice d).bind fun d => ?_
      simp only [hactions]
      exact .refl _
  | typeNumber d v e s c w =>
      refine (hdevice d).bind fun d => ?_
      simp only [hactions]
      exact .refl _
  | query fn args => exact absurd rfl (hc fn args)
  | _ => exact .refl _

/-! ## Calls that only append -/

/-- A call that only appends gives back the same on every builder. -/
theorem apply_eq_append (hc : c.isAdding = true) (hm : ∀ d, c ≠ .misuse d) :
    ∃ r : Reply, ∀ b : Builder,
      b.apply c = (b.commandsOf c >>= fun cs => pure (b.append cs, r)) := by
  cases c with
  | typeNumber d v e s c w => exact ⟨.flag v.isSet, fun _ => rfl⟩
  | misuse d => exact absurd rfl (hm d)
  | clear => cases hc
  | device n => cases hc
  | truncate n => cases hc
  | commands => cases hc
  | setStrict v => cases hc
  | _ => exact ⟨.nothing, fun _ => rfl⟩

theorem apply_misuse (d : Option Value) (b : Builder) (j : Log.Journal) :
    ∃ e, (b.apply (.misuse d)).run j = (.error e, j) := by
  cases d with
  | none => exact ⟨_, rfl⟩
  | some d =>
      rw [apply, run_liftM_bind]
      cases b.lookUp d with
      | error e => exact ⟨e, rfl⟩
      | ok d => exact ⟨_, rfl⟩

/-- What becomes of a call on a builder, and of the same call on one that has absorbed it:
both fail, or both append the same, or the first one takes a query too many. -/
inductive Absorbs (a b : Builder) : Except Fault (Builder × Reply) × Log.Journal →
    Except Fault (Builder × Reply) × Log.Journal → Prop where
  | failed {e e' : Fault} {j j' : Log.Journal} : Absorbs a b (.error e, j) (.error e', j')
  | appended {cs : Stream} {r : Reply} {j : Log.Journal}
      (hq : a.stream.queries + (b.append cs).stream.queries ≤ 1) :
      Absorbs a b (.ok (b.append cs, r), j) (.ok ((a.absorb b).append cs, r), j)
  | full {cs : Stream} {r : Reply} {e : Fault} {j j' : Log.Journal}
      (hq : 1 < a.stream.queries + (b.append cs).stream.queries) :
      Absorbs a b (.ok (b.append cs, r), j) (.error e, j')

/-- Appending after commands that are there already. -/
theorem Absorbs.of_commands {r : Reply} {j t : Log.Journal}
    (hb : (b.commandsOf c).run j = (.ok cs, t))
    (ha : ((a.absorb b).commandsOf c).run j = (.ok cs, t))
    (hq : a.stream.queries + (b.append cs).stream.queries ≤ 1) :
    Absorbs a b ((b.commandsOf c >>= fun cs => pure (b.append cs, r)).run j)
      (((a.absorb b).commandsOf c >>= fun cs => pure ((a.absorb b).append cs, r)).run j) := by
  rw [run_bind_ok hb, run_bind_ok ha]
  exact .appended hq

/-- A query is taken by a builder without one, but not by one that has absorbed it if that
had one before. -/
theorem query_absorbs (fn args : Value) (r : Reply) (j : Log.Journal)
    (hq : a.stream.queries + b.stream.queries ≤ 1) :
    Absorbs a b ((b.commandsOf (.query fn args) >>= fun cs => pure (b.append cs, r)).run j)
      (((a.absorb b).commandsOf (.query fn args) >>= fun cs =>
        pure ((a.absorb b).append cs, r)).run j) := by
  have hsum : (a.absorb b).stream.queries = a.stream.queries + b.stream.queries :=
    Stream.queries_append _ _
  by_cases hb : b.stream.queries = 0
  · cases hargs : args.arguments with
    | error e =>
        have hfails (d : Builder) : ∃ f, (d.commandsOf (.query fn args)).run j = (.error f, j) := by
          rw [run_query, queryCommand, hargs]
          split
          · exact ⟨_, rfl⟩
          · exact ⟨_, rfl⟩
        obtain ⟨f, hf⟩ := hfails b
        obtain ⟨g, hg⟩ := hfails (a.absorb b)
        rw [run_bind_error hf, run_bind_error hg]
        exact .failed
    | ok xs =>
        have hone : (b.append [.query fn xs]).stream.queries = 1 := by
          rw [append, Stream.queries_append, hb]
          rfl
        have htaken := run_query_taken hb hargs fn j
        by_cases ha : a.stream.queries = 0
        · have hnone : (a.absorb b).stream.queries = 0 := by rw [hsum, ha, hb]
          refine .of_commands htaken (run_query_taken hnone hargs fn j) ?_
          omega
        · have hsome : (a.absorb b).stream.queries ≠ 0 := by
            rw [hsum]
            omega
          rw [run_bind_ok htaken, run_bind_error (run_query_refused hsome fn args j)]
          refine .full ?_
          rw [hone]
          omega
  · have hsome : (a.absorb b).stream.queries ≠ 0 := by
      rw [hsum]
      omega
    rw [run_bind_error (run_query_refused hb fn args j),
      run_bind_error (run_query_refused hsome fn args j)]
    exact .failed

/-- A call that only appends does to a builder that has absorbed another one what it does to
the other one, unless there would be two queries. -/
theorem apply_absorbs (hc : c.isAdding = true) (hair : a.airframe = b.airframe)
    (hq : a.stream.queries + b.stream.queries ≤ 1) (j : Log.Journal) :
    Absorbs a b ((b.apply c).run j) (((a.absorb b).apply c).run j) := by
  by_cases hm : ∃ d, c = .misuse d
  · obtain ⟨d, rfl⟩ := hm
    obtain ⟨e, he⟩ := apply_misuse d b j
    obtain ⟨e', he'⟩ := apply_misuse d (a.absorb b) j
    rw [he, he']
    exact .failed
  obtain ⟨r, happly⟩ := apply_eq_append hc fun d hd => hm ⟨d, hd⟩
  rw [happly, happly]
  by_cases hquery : ∃ fn args, c = .query fn args
  · obtain ⟨fn, args, rfl⟩ := hquery
    exact query_absorbs fn args r j hq
  · have hn : ∀ fn args, c ≠ .query fn args := fun fn args h => hquery ⟨fn, args, h⟩
    have hair' : b.airframe = (a.absorb b).airframe := hair.symm
    rcases commandsOf_alike hair' rfl c hn j with h | ⟨e, t, e', t', h, h'⟩
    · rcases hr : (b.commandsOf c).run j with ⟨e | cs, t⟩
      · rw [run_bind_error hr, run_bind_error (h ▸ hr)]
        exact .failed
      · refine .of_commands hr (h ▸ hr) ?_
        have hz := (commandsOf_yields_drawn b c j cs t hr).queries_eq_zero hn
        rw [append, Stream.queries_append, hz]
        exact hq
    · rw [run_bind_error h, run_bind_error h']
      exact .failed

end Builder

end Cockpit
