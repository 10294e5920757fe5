import Cockpit.Proofs.Blocks.Framing

/-!
# What orderly operations keep

While a block of a builder is open, or while it builds, other builders may come and
go and faults may be caught.  `Workshop.Keeps` says what is left of a workshop
afterwards: every builder is in the frame that it was in, and the streams of busy
builders only became longer.  So a block whose body fails can be cut out by the
length that the stream had before.

This module proves it of a call, of a block whose body keeps frames one block
further in, and of a splice whose build keeps frames with nothing open.
-/

namespace Cockpit

open Op

/-! ## Calls open and close nothing -/

/-- The commands of presses open and close nothing. -/
theorem Stream.isPlain_actions (ps : List Press) : IsPlain (ps.map Command.action) := by
  intro c hc
  obtain ⟨p, -, rfl⟩ := List.mem_map.mp hc
  exact ⟨rfl, rfl⟩

namespace Builder

theorem Drawn.isPlain {b : Builder} {c : Call Value} {cs : Stream} (h : b.Drawn c cs) :
    cs.IsPlain := by
  cases h with
  | presses ps => exact Stream.isPlain_actions ps
  | wait _ => exact Stream.isPlain_singleton ⟨rfl, rfl⟩
  | marker _ => exact Stream.isPlain_singleton ⟨rfl, rfl⟩
  | abort _ => exact Stream.isPlain_singleton ⟨rfl, rfl⟩
  | exec _ _ _ => exact Stream.isPlain_singleton ⟨rfl, rfl⟩
  | query _ _ _ => exact Stream.isPlain_singleton ⟨rfl, rfl⟩

/-- No call opens or closes a block. -/
theorem commandsOf_yields_plain (b : Builder) (c : Call Value) :
    (b.commandsOf c).Yields Stream.IsPlain :=
  fun s cs t h => (commandsOf_yields_drawn b c s cs t h).isPlain

end Builder

/-! ## Workshops in frames -/

namespace Workshop

variable {busy : List BuilderId} {F : BuilderId → Frame} {id other : BuilderId}
  {w w' w'' : Workshop}

/-- Whether every builder fits its frame, and every name stands for a builder. -/
structure Framed (w : Workshop) (F : BuilderId → Frame) : Prop where
  builders : ∀ id, (w.builder id).Framed (F id)
  names : ∀ e ∈ w.names, e.2 < w.benches.length

/-- Whether only busy builders are in the middle of something. -/
def Idle (busy : List BuilderId) (F : BuilderId → Frame) : Prop := ∀ id, id ∉ busy → F id = {}

/-- What one workshop keeps of another: the frames, the builders, and of busy builders
what they had in their streams. -/
structure Keeps (busy : List BuilderId) (F : BuilderId → Frame) (w w' : Workshop) : Prop where
  framed : w'.Framed F
  grows : w.benches.length ≤ w'.benches.length
  streams : ∀ id ∈ busy, (w.builder id).stream <+: (w'.builder id).stream

theorem Framed.of_benches (h : w.Framed F) (hb : w'.benches = w.benches)
    (hn : w'.names = w.names) : w'.Framed F := by
  constructor
  · intro id
    have hid : w'.builder id = w.builder id := by rw [builder, builder, bench, bench, hb]
    rw [hid]
    exact h.builders id
  · rw [hn, hb]
    exact h.names

theorem Framed.change (h : w.Framed F) (hid : id < w.benches.length) {g : Builder → Builder}
    {f : Frame} (hg : (g (w.builder id)).Framed f) :
    (w.changeBuilder id g).Framed (Function.update F id f) := by
  constructor
  · intro i
    by_cases hi : i = id
    · subst hi
      rw [builder_changeBuilder_self hid, Function.update_self]
      exact hg
    · rw [builder_changeBuilder_of_ne w hi, Function.update_of_ne hi]
      exact h.builders i
  · rw [names_changeBuilder, length_changeBuilder]
    exact h.names

theorem Keeps.refl (busy : List BuilderId) (h : w.Framed F) : Keeps busy F w w where
  framed := h
  grows := Nat.le_refl _
  streams _ _ := List.prefix_rfl

theorem Keeps.trans (h : Keeps busy F w w') (h' : Keeps busy F w' w'') : Keeps busy F w w'' where
  framed := h'.framed
  grows := Nat.le_trans h.grows h'.grows
  streams id hid := (h.streams id hid).trans (h'.streams id hid)

/-- A change of one builder that keeps its frame and only makes its stream longer. -/
theorem Framed.keeps_change (h : w.Framed F) (hid : id < w.benches.length)
    {g : Builder → Builder} (hg : (g (w.builder id)).Framed (F id))
    (hs : id ∈ busy → (w.builder id).stream <+: (g (w.builder id)).stream) :
    Keeps busy F w (w.changeBuilder id g) where
  framed := by
    have hc := h.change hid hg
    rwa [Function.update_eq_self] at hc
  grows := Nat.le_of_eq (length_changeBuilder id g w).symm
  streams i hi := by
    by_cases he : i = id
    · subst he
      rw [builder_changeBuilder_self hid]
      exact hs hi
    · simp only [builder_changeBuilder_of_ne w he, List.prefix_rfl]

/-- Commands that open and close nothing keep frames. -/
theorem Framed.keeps_append (h : w.Framed F) (hid : id < w.benches.length) {cs : Stream}
    (hcs : cs.IsPlain) : Keeps busy F w (w.changeBuilder id fun _ => (w.builder id).append cs) :=
  h.keeps_change hid ((h.builders id).append_plain hcs) fun _ => List.prefix_append _ _

theorem Keeps.of_benches (h : Keeps busy F w w') (hb : w''.benches = w'.benches)
    (hn : w''.names = w'.names) : Keeps busy F w w'' where
  framed := h.framed.of_benches hb hn
  grows := by rw [hb]; exact h.grows
  streams id hid := by
    have he : w''.builder id = w'.builder id := by rw [builder, builder, bench, bench, hb]
    rw [he]
    exact h.streams id hid

theorem Keeps.mono {more : List BuilderId} (h : Keeps more F w w') (hm : ∀ i ∈ busy, i ∈ more) :
    Keeps busy F w w' := ⟨h.framed, h.grows, fun i hi => h.streams i (hm i hi)⟩

theorem Idle.mono {more : List BuilderId} (hi : Idle busy F) (hm : ∀ i ∈ busy, i ∈ more) :
    Idle more F := fun i hn => hi i fun h => hn (hm i h)

/-! ### Targets -/

/-- A new builder that has done nothing fits the frame with nothing open. -/
theorem Framed.keeps_withBench (busy : List BuilderId) (h : w.Framed F) {b : Bench}
    (hs : b.builder.stream = []) (hc : b.builder.openConditions = []) :
    Keeps busy F w (w.withBench b) := by
  have hlen : (w.withBench b).benches.length = w.benches.length + 1 := List.length_append
  refine ⟨⟨fun i => ?_, fun e he => ?_⟩, ?_, fun i _ => ?_⟩
  · obtain ⟨hsi, hci⟩ := parts_withBench hs hc i w
    exact (h.builders i).of_parts hsi hci
  · rw [hlen]
    exact Nat.lt_succ_of_lt (h.names e he)
  · rw [hlen]
    exact Nat.le_succ _
  · simp only [(parts_withBench hs hc i w).1, List.prefix_rfl]

theorem Framed.keeps_find (busy : List BuilderId) (h : w.Framed F) (t : Target) :
    Keeps busy F w ((find t).run w).2 ∧
      ∀ id, ((find t).run w).1 = .ok id → id < ((find t).run w).2.benches.length := by
  rcases find_cases t w with ⟨e, hf⟩ | ⟨n, id, hn, hf⟩ | ⟨b, hs, hc, hf⟩
  · rw [hf]
    exact ⟨.refl busy h, nofun⟩
  · rw [hf]
    refine ⟨.refl busy h, fun i hi => ?_⟩
    cases hi
    exact h.names _ hn
  · rw [hf]
    refine ⟨h.keeps_withBench busy hs hc, fun i hi => ?_⟩
    cases hi
    rw [withBench, List.length_append]
    exact Nat.lt_succ_self _

/-! ### Calls -/

/-- What an orderly call makes of a builder in its frame. -/
theorem framed_apply {b b' : Builder} {c : Call Value} {r : Reply} {j j' : Log.Journal} {f : Frame}
    (h : b.Framed f) (hf : id ∉ busy → f = {}) (hc : c.isOrderly busy id = true)
    (hr : (b.apply c).run j = (.ok (b', r), j')) :
    b'.Framed f ∧ (id ∈ busy → b.stream <+: b'.stream) := by
  rcases Builder.apply_cases hr with ⟨rfl, rfl⟩ | ⟨n, s, rfl, -, -⟩ | ⟨v, rfl, rfl⟩ | ⟨cs, hcs, rfl⟩
  · have hid : id ∉ busy := by simpa [Call.isOrderly] using hc
    cases hf hid
    exact ⟨h.clear, fun hm => absurd hm hid⟩
  · cases hc
  · exact ⟨h.setStrict v.isSet, fun _ => List.prefix_rfl⟩
  · have hp : Stream.IsPlain cs := Builder.commandsOf_yields_plain b c _ _ _ hcs
    exact ⟨h.append_plain hp, fun _ => List.prefix_append _ _⟩

theorem Framed.keeps_call (h : w.Framed F) (hi : Idle busy F) (hid : id < w.benches.length)
    {c : Call Value} (hc : c.isOrderly busy id = true) :
    Keeps busy F w ((call id c).run w).2 := by
  rw [run_call]
  rcases hr : ((w.builder id).apply c).run w.journal with ⟨e | ⟨b, r⟩, j⟩
  · exact (Keeps.refl busy h).of_benches rfl rfl
  · obtain ⟨hb, hs⟩ := framed_apply (h.builders id) (hi id) hc hr
    have hk : Keeps busy F w (w.changeBuilder id fun _ => b) := h.keeps_change hid hb hs
    exact hk.of_benches rfl rfl

/-! ### Builders in other frames for a while -/

/-- A builder is put into a frame, runs there, and is put back by a change. -/
theorem Keeps.back {w₁ t : Workshop} {f : Frame} {g : Builder → Builder}
    (hk : Keeps (id :: busy) (Function.update F id f) w₁ t)
    (hl : w₁.benches.length = w.benches.length)
    (hw : ∀ i, i ≠ id → w₁.builder i = w.builder i) (hid : id < w.benches.length)
    (hg : (g (t.builder id)).Framed (F id))
    (hs : id ∈ busy → (w.builder id).stream <+: (g (t.builder id)).stream) :
    Keeps busy F w (t.changeBuilder id g) := by
  have hgrows : w.benches.length ≤ t.benches.length := hl ▸ hk.grows
  have hidt : id < t.benches.length := Nat.lt_of_lt_of_le hid hgrows
  refine ⟨?_, ?_, fun i hi => ?_⟩
  · have hc := hk.framed.change hidt hg
    rwa [Function.update_idem, Function.update_eq_self] at hc
  · rwa [length_changeBuilder]
  · by_cases he : i = id
    · subst he
      rw [builder_changeBuilder_self hidt]
      exact hs hi
    · rw [builder_changeBuilder_of_ne t he, ← hw i he]
      exact hk.streams i (List.mem_cons_of_mem id hi)

theorem Idle.cons (hi : Idle busy F) (id : BuilderId) (f : Frame) :
    Idle (id :: busy) (Function.update F id f) := by
  intro i hn
  have hne : i ≠ id := fun he => hn (List.mem_cons.mpr (Or.inl he))
  rw [Function.update_of_ne hne]
  exact hi i fun hm => hn (List.mem_cons_of_mem id hm)

/-! ### Blocks -/

variable {h : BlockHead Value} {opener : Command} {t : Workshop}

/-- A builder that opens a block with a new text fits one block further in. -/
theorem Framed.opened (hw : w.Framed F) (hid : id < w.benches.length)
    (ho : h.opener = .ok opener) (htext : h.condition.isText = true)
    (hn : (w.builder id).openConditions.any (·.same h.condition) = false) :
    (w.opened id h.condition opener).Framed (Function.update F id ((F id).enter h.opening)) := by
  refine hw.change hid ((hw.builders id).openBlock (o := h.opening) (BlockHead.opens?_opener ho) ?_)
  cases hc : h.condition with
  | text s =>
      rw [hc] at hn
      rw [BlockHead.opening, hc]
      exact not_mem_of_any_same hn
  | _ =>
      rw [hc] at htext
      cases htext

/-- What a builder had before its block is still there after the body of the block. -/
theorem Keeps.prefix_opened {F' : BuilderId → Frame} (hid : id < w.benches.length)
    (hk : Keeps (id :: busy) F' (w.opened id h.condition opener) t) :
    (w.builder id).stream <+: (t.builder id).stream := by
  have hs := hk.streams id List.mem_cons_self
  rw [Workshop.opened, builder_changeBuilder_self hid] at hs
  exact (List.prefix_append _ _).trans hs

/-- A block that is left by a change of its builder keeps frames. -/
theorem Keeps.leaveBlock {g : Builder → Builder} (hid : id < w.benches.length)
    (hk : Keeps (id :: busy) (Function.update F id ((F id).enter h.opening))
      (w.opened id h.condition opener) t)
    (hg : (t.builder id).Framed ((F id).enter h.opening) → (g (t.builder id).leave).Framed (F id))
    (hs : (w.builder id).stream <+: (g (t.builder id).leave).stream) :
    Keeps busy F w ((dropCondition id t).changeBuilder id g) := by
  have hfr := hk.framed.builders id
  rw [Function.update_self] at hfr
  have hlen : (w.opened id h.condition opener).benches.length = w.benches.length :=
    length_changeBuilder id _ w
  have hidt : id < t.benches.length := Nat.lt_of_lt_of_le hid (hlen ▸ hk.grows)
  change Keeps busy F w ((t.changeBuilder id Builder.leave).changeBuilder id g)
  rw [changeBuilder_changeBuilder hidt]
  exact hk.back hlen (fun i hi => builder_changeBuilder_of_ne w hi _) hid (hg hfr) fun _ => hs

/-- A block keeps frames if its body does one block further in. -/
theorem Framed.keeps_block (hw : w.Framed F) (hid : id < w.benches.length)
    {body : Op Workshop Unit}
    (hbody : ∀ opener, h.opener = .ok opener →
      (w.builder id).openConditions.any (·.same h.condition) = false →
      h.condition.isText = true ∧
        ((w.opened id h.condition opener).Framed (Function.update F id ((F id).enter h.opening)) →
          Keeps (id :: busy) (Function.update F id ((F id).enter h.opening))
            (w.opened id h.condition opener) (body.run (w.opened id h.condition opener)).2)) :
    Keeps busy F w ((block id h body).run w).2 := by
  by_cases hopen : ∃ opener, h.opener = .ok opener ∧
      (w.builder id).openConditions.any (·.same h.condition) = false
  · obtain ⟨opener, ho, hn⟩ := hopen
    obtain ⟨htext, hbody⟩ := hbody opener ho hn
    have hk := hbody (hw.opened hid ho htext hn)
    rw [run_block body ho hn]
    rcases hr : body.run (w.opened id h.condition opener) with ⟨e | u, t⟩
    · rw [hr] at hk
      have hpre := hk.prefix_opened hid
      have hlen : id < t.benches.length := by
        have := hk.grows
        rw [Workshop.opened, length_changeBuilder] at this
        exact Nat.lt_of_lt_of_le hid this
      -- The order of cutting the stream and forgetting the condition does not matter.
      have hswap : dropCondition id (cutBack id (w.builder id).stream.length t) =
          (dropCondition id t).changeBuilder id (Builder.cut (w.builder id).stream.length) := by
        change (t.changeBuilder id _).changeBuilder id Builder.leave =
          (t.changeBuilder id Builder.leave).changeBuilder id _
        rw [changeBuilder_changeBuilder hlen, changeBuilder_changeBuilder hlen]
        rfl
      dsimp only
      rw [hswap]
      refine hk.leaveBlock hid (fun hfr => (hw.builders id).cutBlock hfr hpre) ?_
      exact ⟨[], (List.append_nil _).trans (List.prefix_iff_eq_take.mp hpre)⟩
    · rw [hr] at hk
      refine hk.leaveBlock (g := (·.append [h.closer])) hid
        (fun hfr => hfr.closeBlock h.opens?_closer h.closes?_closer) ?_
      exact (hk.prefix_opened hid).trans (List.prefix_append _ _)
  · have hclosed : ∀ opener, h.opener = .ok opener →
        (w.builder id).openConditions.any (·.same h.condition) = true := fun opener ho =>
      Bool.of_not_eq_false fun hn => hopen ⟨opener, ho, hn⟩
    obtain ⟨e, he⟩ := run_block_error body hclosed
    rw [he]
    exact .refl busy hw

/-! ### Splices -/

/-- Taking commands over keeps frames if they fit in. -/
theorem Framed.keeps_takeOver (h : w.Framed F) (hid : id < w.benches.length)
    (hs : (w.builder other).stream.WellNested)
    (hv : (w.builder other).stream.Avoids (F id).conditions) :
    Keeps busy F w ((takeOver id other).run w).2 := by
  rw [run_takeOver]
  split
  · exact .refl busy h
  · have hk : Keeps busy F w (w.takenOver id other) :=
      h.keeps_change hid ((h.builders id).takeOver hs hv) fun _ => List.prefix_append _ _
    exact hk.of_benches rfl rfl

/-- A splice keeps frames if the build does with nothing open. -/
theorem Framed.keeps_splice (h : w.Framed F) (hi : Idle busy F) (hid : id < w.benches.length)
    (hother : other < w.benches.length) (hb : other ∉ busy) {build : Building} {context : Value}
    (hbuild : (w.lent id other).Framed (Function.update F other ⟨(F id).conditions, []⟩) →
      Keeps (other :: busy) (Function.update F other ⟨(F id).conditions, []⟩) (w.lent id other)
        ((build other context).run (w.lent id other)).2) :
    Keeps busy F w ((splice build id other context).run w).2 := by
  -- The other builder is not busy, so it may be emptied.
  have hidle : F other = {} := hi other hb
  have hbefore := h.builders other
  rw [hidle] at hbefore
  have hcleared : (w.changeBuilder other Builder.clear).Framed F := by
    have hc := h.change hother hbefore.clear
    rwa [← hidle, Function.update_eq_self] at hc
  have hclosed := hcleared.builders other
  rw [hidle] at hclosed
  have hother' : other < (w.changeBuilder other Builder.clear).benches.length := by
    rwa [length_changeBuilder]
  have hlent : (w.lent id other).Framed (Function.update F other ⟨(F id).conditions, []⟩) := by
    refine hcleared.change hother' ?_
    rw [← (hcleared.builders id).conditions]
    exact Builder.framed_lend _ _
  have hk := hbuild hlent
  have hlen : (w.lent id other).benches.length = w.benches.length := by
    rw [lent, length_changeBuilder, length_changeBuilder]
  have hne (i : BuilderId) (hi : i ≠ other) : (w.lent id other).builder i = w.builder i := by
    rw [builder_lent_of_ne hi]
  have hfr := hk.framed.builders other
  rw [Function.update_self] at hfr
  have hback := hk.back (g := giveBack ((w.changeBuilder other Builder.clear).builder other))
    hlen hne hother (hidle ▸ hfr.giveBack hclosed) fun hm => absurd hm hb
  rw [run_splice]
  rcases hr : (build other context).run (w.lent id other) with ⟨e | u, t⟩
  · rw [hr] at hback
    exact hback
  · rw [hr] at hback hfr hk
    refine hback.trans (hback.framed.keeps_takeOver (Nat.lt_of_lt_of_le hid hback.grows) ?_ ?_)
    all_goals
      have hlt : other < t.benches.length := Nat.lt_of_lt_of_le hother (hlen ▸ hk.grows)
      rw [builder_changeBuilder_self hlt]
    · exact hfr.scans
    · exact hfr.avoids

end Workshop

end Cockpit
