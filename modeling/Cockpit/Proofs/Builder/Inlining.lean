import Cockpit.Proofs.Builder.Growing

/-!
# Splicing is inlining

A splice runs the program of another builder, the *guest*, on the guest's own empty stream,
and then takes its commands over.  Inlining runs the same program on the *host* itself.
`Workshop.inline` turns a workshop in the middle of the first run into the one in the middle
of the second: there the host has absorbed the guest, and the guest is as it was.

`Step.run_mirrors` is the simulation.  As long as host and guest have at most one query
together, each step of the one run has its step of the other.  A step that gives them two
goes on in the first run, but fails in the second, and the first one fails when the commands
are taken over.

`Workshop.splice_eq_inlined` is the result: both runs succeed or fail together, with the same
commands of the host.
-/

namespace Cockpit

open Op Workshop

namespace Workshop

variable {w w' : Workshop} {host guest id : BuilderId} {before : Builder}
  {f : Builder → Builder} {names : List String}

/-! ## The workshop of the other run -/

/-- The workshop in which the host has absorbed the guest, which is as it was before. -/
def inline (host guest : BuilderId) (before : Builder) (w : Workshop) : Workshop :=
  w.override [host, guest] fun i =>
    if i = host then (w.builder host).absorb (w.builder guest) else before

/-- How many queries host and guest have together. -/
def together (host guest : BuilderId) (w : Workshop) : Nat :=
  (w.builder host).stream.queries + (w.builder guest).stream.queries

theorem builder_inline (hhost : host < w.benches.length) :
    (w.inline host guest before).builder host = (w.builder host).absorb (w.builder guest) := by
  rw [inline, builder_override_of_mem List.mem_cons_self hhost, if_pos rfl]

/-- A change of the guest is one of the host in the other run, if absorbing keeps it. -/
theorem inline_change_guest (hne : host ≠ guest) (hhost : host < w.benches.length)
    (hguest : guest < w.benches.length) (hf : ∀ a b, Builder.absorb a (f b) = f (a.absorb b)) :
    (w.changeBuilder guest f).inline host guest before =
      (w.inline host guest before).changeBuilder host f := by
  have hmem : host ∈ [host, guest] := List.mem_cons_self
  have hmem' : guest ∈ [host, guest] := List.mem_cons_of_mem _ List.mem_cons_self
  have hchange : (w.inline host guest before).changeBuilder host f =
      (w.inline host guest before).setBuilder host
        (f ((w.builder host).absorb (w.builder guest))) := by
    rw [changeBuilder, builder_inline hhost]
  rw [hchange, inline, builder_changeBuilder_self hguest, builder_changeBuilder_of_ne w hne,
    changeBuilder, override_setBuilder hmem', inline, setBuilder_override_of_mem hmem, hf]
  refine override_congr fun i _ => ?_
  by_cases hi : i = host
  · simp only [hi, if_true]
  · simp only [hi, if_false]

/-- A change of any other builder is the same in both runs. -/
theorem inline_change_other (hid : id ∉ [host, guest]) :
    (w.changeBuilder id f).inline host guest before =
      (w.inline host guest before).changeBuilder id f := by
  have hhost : host ≠ id := fun h => hid (h ▸ List.mem_cons_self)
  have hguest : guest ≠ id := fun h => hid (h ▸ List.mem_cons_of_mem _ List.mem_cons_self)
  rw [inline, builder_changeBuilder_of_ne w hhost, builder_changeBuilder_of_ne w hguest,
    inline, changeBuilder_override hid]

/-- An operation that spares host and guest does the same in both runs. -/
theorem run_inline {α : Type} {x : Op Workshop α} (before : Builder)
    (hx : x.Spares [host, guest] w) (hhost : host < w.benches.length)
    (hguest : guest < w.benches.length) :
    x.run (w.inline host guest before) =
      ((x.run w).1, (x.run w).2.inline host guest before) := by
  have hmem : host ∈ [host, guest] := List.mem_cons_self
  have hmem' : guest ∈ [host, guest] := List.mem_cons_of_mem _ List.mem_cons_self
  rw [inline, hx.commutes, inline, hx.builder_eq hmem hhost, hx.builder_eq hmem' hguest]

/-- Lending to the guest is lending to the host in the other run. -/
theorem inline_lent (hhost : host < w.benches.length) (hid : id ∉ [host, guest]) :
    (w.lent guest id).inline host guest before = (w.inline host guest before).lent host id := by
  have hguest : guest ≠ id := fun h => hid (h ▸ List.mem_cons_of_mem _ List.mem_cons_self)
  have hhost' : host ≠ id := fun h => hid (h ▸ List.mem_cons_self)
  have hlend (a b : Builder) : lend (a.absorb b) = lend b := rfl
  rw [lent, lent, inline_change_other hid, inline_change_other hid,
    builder_changeBuilder_of_ne _ hguest, builder_changeBuilder_of_ne _ hhost',
    builder_inline hhost, hlend]

/-- The workshop with the innermost block of a builder closed. -/
def closed (id : BuilderId) (head : BlockHead Value) (w : Workshop) : Workshop :=
  (dropCondition id w).changeBuilder id (·.append [head.closer])

/-! ## Host and guest -/

/-- Two builders with one airframe, neither of which some names stand for. -/
structure Paired (names : List String) (host guest : BuilderId) (w : Workshop) : Prop where
  ne : host ≠ guest
  host_lt : host < w.benches.length
  guest_lt : guest < w.benches.length
  airframe : (w.builder host).airframe = (w.builder guest).airframe
  supplies : Supplies names [host, guest] w

namespace Paired

theorem guest_notMem (h : Paired names host guest w) : guest ∉ [host] :=
  fun hin => h.ne (List.mem_singleton.mp hin).symm

theorem lt_of_mem (h : Paired names host guest w) :
    ∀ i ∈ [host, guest], i < w.benches.length := by
  intro i hi
  rcases List.mem_cons.mp hi with rfl | hi
  · exact h.host_lt
  · rw [List.mem_singleton.mp hi]
    exact h.guest_lt

theorem host_in (h : Paired names host guest w) : ∀ i ∈ [host], i < w.benches.length :=
  fun _ hi => List.mem_singleton.mp hi ▸ h.host_lt

theorem supplies_host (h : Paired names host guest w) : Supplies names [host] w :=
  h.supplies.mono fun _ hi => List.mem_singleton.mp hi ▸ List.mem_cons_self

theorem supplies_guest (h : Paired names host guest w) : Supplies names [guest] w :=
  h.supplies.mono fun _ hi => List.mem_cons_of_mem _ hi

/-- What only adds to the guest keeps the pair. -/
theorem grow (h : Paired names host guest w) (he : Extends w w')
    (hhost : w'.builder host = w.builder host) (hguest : Grown guest w w') :
    Paired names host guest w' where
  ne := h.ne
  host_lt := Nat.lt_of_lt_of_le h.host_lt he.grows
  guest_lt := Nat.lt_of_lt_of_le h.guest_lt he.grows
  airframe := by rw [hhost, hguest.airframe, h.airframe]
  supplies := h.supplies.extend he

theorem change (h : Paired names host guest w)
    (hf : (f (w.builder guest)).airframe = (w.builder guest).airframe) :
    Paired names host guest (w.changeBuilder guest f) where
  ne := h.ne
  host_lt := (length_changeBuilder _ _ w).symm ▸ h.host_lt
  guest_lt := (length_changeBuilder _ _ w).symm ▸ h.guest_lt
  airframe := by
    rw [builder_changeBuilder_of_ne w h.ne, builder_changeBuilder_self h.guest_lt, hf, h.airframe]
  supplies := h.supplies.extend (extends_changeBuilder _ _ _)

theorem together_change (h : Paired names host guest w) :
    together host guest (w.changeBuilder guest f) =
      (w.builder host).stream.queries + (f (w.builder guest)).stream.queries := by
  rw [together, builder_changeBuilder_of_ne w h.ne, builder_changeBuilder_self h.guest_lt]

theorem together_append (h : Paired names host guest w) (cs : Stream) :
    together host guest (w.changeBuilder guest (·.append cs)) =
      together host guest w + cs.queries := by
  rw [h.together_change, together, Builder.append, Stream.queries_append, Nat.add_assoc]

/-- The journal does not count. -/
theorem log (h : Paired names host guest w) (j : Log.Journal) :
    Paired names host guest { w with journal := j } :=
  ⟨h.ne, h.host_lt, h.guest_lt, h.airframe, h.supplies⟩

/-- What spares both keeps the pair and its queries. -/
theorem spare {α : Type} {x : Op Workshop α} (h : Paired names host guest w)
    (hx : x.Spares [host, guest] w) : Paired names host guest (x.run w).2 ∧
      together host guest (x.run w).2 = together host guest w := by
  have hhost := hx.builder_eq List.mem_cons_self h.host_lt
  have hguest := hx.builder_eq (List.mem_cons_of_mem _ List.mem_cons_self) h.guest_lt
  refine ⟨h.grow hx.extended hhost (.of_eq hguest), ?_⟩
  rw [together, together, hhost, hguest]

theorem other (h : Paired names host guest w) (hid : id ∉ [host, guest])
    (f : Builder → Builder) : Paired names host guest (w.changeBuilder id f) :=
  (h.spare (spares_change hid f)).1

/-- What gives a result, spares the host and only adds to the guest keeps the pair. -/
theorem add {α : Type} {x : Op Workshop α} {a : α} (h : Paired names host guest w)
    (hx : x.Spares [host] w) (hg : Grows guest x w) (hr : x.run w = (.ok a, w')) :
    Paired names host guest w' ∧ together host guest w ≤ together host guest w' := by
  have hgrown := hg a w' hr
  have he := hx.extended
  have hhost := hx.builder_eq List.mem_cons_self h.host_lt
  rw [hr] at he hhost
  refine ⟨h.grow he hhost hgrown, ?_⟩
  rw [together, together, hhost]
  exact Nat.add_le_add_left (Stream.queries_le_of_sublist hgrown.stream.sublist) _

/-- Opening a block adds no query. -/
theorem together_opened (h : Paired names host guest w) {head : BlockHead Value}
    {opener : Command} (ho : head.opener = .ok opener) :
    together host guest (w.opened guest head.condition opener) = together host guest w := by
  rw [opened, h.together_change, Builder.append, Stream.queries_append, Builder.queries_opener ho]
  rfl

theorem inline_opened (h : Paired names host guest w) (condition : Value) (opener : Command) :
    (w.opened guest condition opener).inline host guest before =
      (w.inline host guest before).opened host condition opener := by
  refine inline_change_guest h.ne h.host_lt h.guest_lt fun a b => ?_
  simp only [Builder.absorb, Builder.append, List.append_assoc]

/-- Closing a block adds no query. -/
theorem together_closed (h : Paired names host guest w) (head : BlockHead Value) :
    together host guest (closed guest head w) = together host guest w := by
  have hdrop : Paired names host guest (dropCondition guest w) := h.change rfl
  rw [closed, hdrop.together_append, Builder.queries_closer, dropCondition, h.together_change]
  rfl

theorem inline_closed (h : Paired names host guest w) (head : BlockHead Value) :
    (closed guest head w).inline host guest before =
      closed host head (w.inline host guest before) := by
  have hdrop : Paired names host guest (dropCondition guest w) := h.change rfl
  rw [closed, inline_change_guest h.ne hdrop.host_lt hdrop.guest_lt fun a b =>
    Builder.absorb_append a b _, dropCondition,
    inline_change_guest h.ne h.host_lt h.guest_lt fun _ _ => rfl, closed, dropCondition]

end Paired

/-! ## Both runs -/

/-- What becomes of a run for the guest, and of the same run for the host: both fail, or both
give the same as long as there is one query, or the first one has a query too many. -/
inductive Mirrors {α : Type} (host guest : BuilderId) (before : Builder) :
    Except Fault α × Workshop → Except Fault α × Workshop → Prop where
  | failed {e e' : Fault} {w w' : Workshop} :
      Mirrors host guest before (.error e, w) (.error e', w')
  | fits {a : α} {w : Workshop} (h : together host guest w ≤ 1) :
      Mirrors host guest before (.ok a, w) (.ok a, w.inline host guest before)
  | full {a : α} {e : Fault} {w w' : Workshop} (h : 1 < together host guest w) :
      Mirrors host guest before (.ok a, w) (.error e, w')

variable {α β : Type}

theorem Mirrors.of_inline {a : α} {v : Workshop} (h : together host guest w ≤ 1)
    (hv : w.inline host guest before = v) : Mirrors host guest before (.ok a, w) (.ok a, v) := by
  rw [← hv]
  exact .fits h

theorem Mirrors.bind {x y : Op Workshop α} {f g : α → Op Workshop β} {v : Workshop}
    (h : Mirrors host guest before (x.run w) (y.run v))
    (hfits : ∀ a w', x.run w = (.ok a, w') → together host guest w' ≤ 1 →
      Mirrors host guest before ((f a).run w') ((g a).run (w'.inline host guest before)))
    (hfull : ∀ a w' b w'', x.run w = (.ok a, w') → 1 < together host guest w' →
      (f a).run w' = (.ok b, w'') → 1 < together host guest w'') :
    Mirrors host guest before ((x >>= f).run w) ((y >>= g).run v) := by
  generalize hx : x.run w = r at h
  generalize hy : y.run v = r' at h
  cases h with
  | failed =>
      rw [run_bind_error hx, run_bind_error hy]
      exact .failed
  | fits hq =>
      rw [run_bind_ok hx, run_bind_ok hy]
      exact hfits _ _ hx hq
  | full hq =>
      rw [run_bind_ok hx, run_bind_error hy]
      rename_i a e t t'
      rcases hr : (f a).run t with ⟨e | b, t''⟩
      · exact .failed
      · exact .full (hfull a t b t'' hx hq hr)

/-- Replying something else at the end. -/
theorem Mirrors.done {x y : Op Workshop α} {v : Workshop} {b : β}
    (h : Mirrors host guest before (x.run w) (y.run v)) :
    Mirrors host guest before ((x >>= fun _ => pure b).run w) ((y >>= fun _ => pure b).run v) := by
  refine h.bind (fun _ _ _ hq => .fits hq) fun a w' b' w'' _ hq hr => ?_
  obtain rfl : w' = w'' := (Prod.mk.inj hr).2
  exact hq

/-- Two runs that start with what spares host and guest. -/
theorem mirrors_bind_spares {x : Op Workshop α} {f g : α → Op Workshop β}
    (h : Paired names host guest w) (hx : x.Spares [host, guest] w)
    (hq : together host guest w ≤ 1)
    (hrest : ∀ a w', x.run w = (.ok a, w') → Paired names host guest w' →
      together host guest w' ≤ 1 →
      Mirrors host guest before ((f a).run w') ((g a).run (w'.inline host guest before))) :
    Mirrors host guest before ((x >>= f).run w) ((x >>= g).run (w.inline host guest before)) := by
  have hrun := run_inline before hx h.host_lt h.guest_lt
  obtain ⟨hp, ht⟩ := h.spare hx
  rcases hr : x.run w with ⟨e | a, w'⟩
  · rw [hr] at hrun
    rw [run_bind_error hr, run_bind_error hrun]
    exact .failed
  · rw [hr] at hrun hp ht
    rw [run_bind_ok hr, run_bind_ok hrun]
    exact hrest a w' hr hp (ht ▸ hq)

/-- A call on the guest and on the host in its place. -/
theorem call_mirrors (h : Paired names host guest w) (hq : together host guest w ≤ 1)
    {c : Call Value} (hc : c.isAdding = true) :
    Mirrors host guest before ((call guest c).run w)
      ((call host c).run (w.inline host guest before)) := by
  have happly := Builder.apply_absorbs hc h.airframe hq w.journal
  rw [run_call, run_call, builder_inline h.host_lt]
  have hj : (w.inline host guest before).journal = w.journal := rfl
  rw [hj]
  generalize ((w.builder guest).apply c).run w.journal = r at happly
  generalize (((w.builder host).absorb (w.builder guest)).apply c).run w.journal = r' at happly
  cases happly with
  | failed => exact .failed
  | @appended cs r j hq' =>
      let logged : Workshop := { w with journal := j }
      have hp : Paired names host guest logged := h.log j
      refine .of_inline (w := logged.changeBuilder guest (·.append cs)) ?_ ?_
      · rw [hp.together_change]
        exact hq'
      · rw [inline_change_guest hp.ne hp.host_lt hp.guest_lt fun a b =>
          Builder.absorb_append a b cs, changeBuilder, builder_inline hp.host_lt]
        rfl
  | @full cs r e j j' hq' =>
      have hp : Paired names host guest { w with journal := j } := h.log j
      refine .full ?_
      have ht := hp.together_change (f := (·.append cs))
      exact Nat.lt_of_lt_of_eq hq' ht.symm

/-- A block around a body on the guest, and on the host in its place. -/
theorem block_mirrors (h : Paired names host guest w) (hq : together host guest w ≤ 1)
    (head : BlockHead Value) {body body' : Op Workshop Unit}
    (hbody : ∀ w', Paired names host guest w' → together host guest w' ≤ 1 →
      Mirrors host guest before (body.run w') (body'.run (w'.inline host guest before)) ∧
        ∀ t, body.run w' = (.ok (), t) → Paired names host guest t) :
    Mirrors host guest before ((block guest head body).run w)
      ((block host head body').run (w.inline host guest before)) := by
  have hconditions : ((w.inline host guest before).builder host).openConditions =
      (w.builder guest).openConditions := by
    rw [builder_inline h.host_lt]
    rfl
  by_cases hopens : ∃ opener, head.opener = .ok opener ∧
      (w.builder guest).openConditions.any (·.same head.condition) = false
  · obtain ⟨opener, ho, hn⟩ := hopens
    rw [run_block body ho hn, run_block body' ho (hconditions ▸ hn)]
    have hp : Paired names host guest (w.opened guest head.condition opener) := h.change rfl
    obtain ⟨hmirrors, hpaired⟩ := hbody _ hp (h.together_opened ho ▸ hq)
    rw [h.inline_opened] at hmirrors
    generalize body.run (w.opened guest head.condition opener) = r at hmirrors hpaired
    generalize body'.run ((w.inline host guest before).opened host head.condition opener) = r'
      at hmirrors
    cases hmirrors with
    | failed => exact .failed
    | @fits u t hq' =>
        have hpt := hpaired t rfl
        exact .of_inline (hpt.together_closed head ▸ hq') (hpt.inline_closed head)
    | @full u e t t' hq' =>
        have hpt := hpaired t rfl
        exact .full (hpt.together_closed head ▸ hq')
  · have hnone (v : Workshop) (id : BuilderId)
        (hv : (v.builder id).openConditions = (w.builder guest).openConditions)
        (body : Op Workshop Unit) : ∃ e, (block id head body).run v = (.error e, v) := by
      refine run_block_error body fun opener ho => ?_
      rw [hv]
      cases hany : (w.builder guest).openConditions.any (·.same head.condition) with
      | true => rfl
      | false => exact absurd ⟨opener, ho, hany⟩ hopens
    obtain ⟨e, he⟩ := hnone w guest rfl body
    obtain ⟨e', he'⟩ := hnone _ host hconditions body'
    rw [he, he']
    exact .failed

/-- Commands taken over by the guest, and by the host in its place. -/
theorem takeOver_mirrors (h : Paired names host guest w) (hid : id ∉ [host, guest]) :
    Mirrors host guest before ((takeOver guest id).run w)
      ((takeOver host id).run (w.inline host guest before)) := by
  have hother : (w.inline host guest before).builder id = w.builder id :=
    builder_override_of_notMem hid
  have hqueries : ((w.inline host guest before).builder host).stream.queries =
      together host guest w := by
    rw [builder_inline h.host_lt, together]
    exact Stream.queries_append _ _
  have htaken : together host guest (w.takenOver guest id) =
      together host guest w + (w.builder id).stream.queries := h.together_append _
  rw [run_takeOver, run_takeOver, hother, hqueries]
  by_cases hguest : 1 < (w.builder guest).stream.queries + (w.builder id).stream.queries
  · have hhost : 1 < together host guest w + (w.builder id).stream.queries := by
      rw [together]
      omega
    rw [if_pos hguest, if_pos hhost]
    exact .failed
  · rw [if_neg hguest]
    by_cases hhost : 1 < together host guest w + (w.builder id).stream.queries
    · rw [if_pos hhost]
      exact .full (htaken ▸ hhost)
    · rw [if_neg hhost]
      have hinline : (w.takenOver guest id).inline host guest before =
          (w.inline host guest before).takenOver host id := by
        rw [takenOver, inline_change_guest h.ne h.host_lt h.guest_lt fun a b =>
          Builder.absorb_append a b _, takenOver, hother]
      have hlength : (((w.inline host guest before).takenOver host id).builder id).stream =
          ((w.takenOver guest id).builder id).stream := by
        rw [← hinline, inline, builder_override_of_notMem hid]
      rw [hlength, ← hinline]
      exact .of_inline (w := { w.takenOver guest id with
        journal := w.journal.add (takeOverReport
          ((w.takenOver guest id).builder id).stream.length (w.builder id).kind) })
        (Nat.le_of_not_lt (htaken ▸ hhost)) rfl

/-- A splice by the guest, and by the host in its place. -/
theorem splice_mirrors {build : Building} {context : Value} (h : Paired names host guest w)
    (hid : id ∉ [host, guest])
    (hbuild : ∀ w', Extends w w' → (build id context).Spares [host, guest] w') :
    Mirrors host guest before ((splice build guest id context).run w)
      ((splice build host id context).run (w.inline host guest before)) := by
  have hcleared : ((w.inline host guest before).changeBuilder id Builder.clear).builder id =
      (w.changeBuilder id Builder.clear).builder id := by
    rw [← inline_change_other hid, inline, builder_override_of_notMem hid]
  have hlent : Paired names host guest (w.lent guest id) := (h.other hid _).other hid _
  have hspares := hbuild _ (extends_lent guest id w)
  have hrun := run_inline before hspares hlent.host_lt hlent.guest_lt
  obtain ⟨hbuilt, -⟩ := hlent.spare hspares
  rw [run_splice, run_splice, hcleared, ← inline_lent h.host_lt hid]
  dsimp only
  rw [hrun]
  rcases hr : (build id context).run (w.lent guest id) with ⟨e | u, t⟩
  · exact .failed
  · rw [hr] at hbuilt
    dsimp only
    rw [← inline_change_other hid]
    exact takeOver_mirrors (hbuilt.other hid _) hid

end Workshop

/-! ## Programs -/

variable {build : Building} {names : List String} {host guest : BuilderId} {before : Builder}

/-- A step that gives a result for the guest keeps the pair. -/
theorem Step.run_paired (hb : build.Sparing names) {s : Step} {context : Value} {r : Reply}
    {w w' : Workshop} (hs : s.onlyAdds names = true) (h : Paired names host guest w)
    (hr : (s.run build guest context).run w = (.ok r, w')) : Paired names host guest w' := by
  refine (h.add ?_ ?_ hr).1
  · exact Step.run_spares hb s hs h.host_in h.supplies_host h.guest_notMem
  · exact Step.run_grows hb s hs h.guest_lt h.supplies_guest

/-- So do steps in order, and no query is lost. -/
theorem Program.run_paired (hb : build.Sparing names) {ss : List Step} {context : Value}
    {w w' : Workshop} (hs : Program.onlyAdds names ss = true) (h : Paired names host guest w)
    (hr : (Program.run build guest context ss).run w = (.ok (), w')) :
    Paired names host guest w' ∧ together host guest w ≤ together host guest w' := by
  refine h.add ?_ ?_ hr
  · exact Program.run_spares hb ss hs h.host_in h.supplies_host h.guest_notMem
  · exact Program.run_grows hb ss hs h.guest_lt h.supplies_guest

mutual

/-- A step for the guest, and for the host in its place. -/
theorem Step.run_mirrors (hb : build.Sparing names) : ∀ (s : Step) {context : Value}
    {w : Workshop}, s.onlyAdds names = true → Paired names host guest w →
      together host guest w ≤ 1 →
        Mirrors host guest before ((s.run build guest context).run w)
          ((s.run build host context).run (w.inline host guest before))
  | .call c, context, w => by
      intro hs h hq
      rw [Step.onlyAdds] at hs
      rw [Step.run, Step.run]
      refine mirrors_bind_spares h (spares_liftM _) hq fun c' w' hr h' hq' => ?_
      obtain ⟨hr', rfl⟩ : c.resolve context = .ok c' ∧ w = w' := Prod.mk.inj hr
      exact call_mirrors h' hq' (Call.resolve_isAdding hs context c' hr')
  | .block head body, context, w => by
      intro hs h hq
      rw [Step.onlyAdds] at hs
      rw [Step.run, Step.run]
      refine mirrors_bind_spares h (spares_liftM _) hq fun head' w₁ _ h₁ hq₁ => ?_
      refine (block_mirrors h₁ hq₁ head' fun w₂ h₂ hq₂ => ?_).done
      refine ⟨Program.run_mirrors hb body hs h₂ hq₂, fun t ht => ?_⟩
      exact (Program.run_paired hb hs h₂ ht).1
  | .splice target c, context, w => by
      intro hs h hq
      rw [Step.onlyAdds] at hs
      rw [Step.run, Step.run]
      obtain ⟨hfind, hfound⟩ := find_spares h.supplies hs h.lt_of_mem
      refine mirrors_bind_spares h hfind hq fun other w₁ hr h₁ hq₁ => ?_
      obtain ⟨hlt, hother, hadds⟩ := hfound other w₁ hr
      refine mirrors_bind_spares h₁ (spares_liftM _) hq₁ fun context' w₂ hr h₂ _ => ?_
      obtain rfl : w₁ = w₂ := (Prod.mk.inj hr).2
      refine (splice_mirrors h₂ hother fun w₃ he => ?_).done
      refine hb [host, guest] other context' w₃ (fun i hi => ?_) (h₂.supplies.extend he)
        (Nat.lt_of_lt_of_le hlt he.grows) hother ?_
      · exact Nat.lt_of_lt_of_le (h₂.lt_of_mem i hi) he.grows
      · rw [he.programs other hlt]
        exact hadds
  | .raise f, context, w => by
      intro _ _ _
      rw [Step.run, Step.run]
      exact .failed
  | .build _, _, _ => nofun
  | .attempt _, _, _ => nofun
  | .on _ _, _, _ => nofun
  | .inspect _, _, _ => nofun
termination_by structural s => s

/-- Steps in order for the guest, and for the host in its place. -/
theorem Program.run_mirrors (hb : build.Sparing names) : ∀ (ss : List Step) {context : Value}
    {w : Workshop}, Program.onlyAdds names ss = true → Paired names host guest w →
      together host guest w ≤ 1 →
        Mirrors host guest before ((Program.run build guest context ss).run w)
          ((Program.run build host context ss).run (w.inline host guest before))
  | [], context, w => by
      intro _ _ hq
      rw [Program.run, Program.run]
      exact .fits hq
  | s :: ss, context, w => by
      intro hs h hq
      rw [Program.onlyAdds, Bool.and_eq_true] at hs
      obtain ⟨hs, hss⟩ := hs
      rw [Program.run, Program.run]
      refine (Step.run_mirrors hb s hs h hq).bind (fun r w' hr hq' => ?_) ?_
      · exact Program.run_mirrors hb ss hss (Step.run_paired hb hs h hr) hq'
      · intro r w' u w'' hr hq' hrest
        have hgrows := (Program.run_paired hb hss (Step.run_paired hb hs h hr) hrest).2
        exact Nat.lt_of_lt_of_le hq' hgrows
termination_by structural ss => ss

end

/-! ## Splices -/

namespace Workshop

variable {w t : Workshop}

/-- The guest on loan, as the other run starts: the host has the strictness of both. -/
theorem inline_start (hne : host ≠ guest) (hguest : guest < w.benches.length) :
    (w.lent host guest).inline host guest (w.builder guest) =
      w.changeBuilder host fun b => { b with strict := b.strict || (w.builder guest).strict } := by
  have hmem : host ∈ [host, guest] := List.mem_cons_self
  have hmem' : guest ∈ [host, guest] := List.mem_cons_of_mem _ List.mem_cons_self
  have hself (b : Builder) : w.setBuilder host b =
      w.override [host, guest] fun i => if i = host then b else w.builder i := by
    have h := setBuilder_override_of_mem (w := w) (g := w.builder) (b := b) hmem
    rwa [override_builder] at h
  have hreplaced (g : BuilderId → Builder) :
      (w.lent host guest).override [host, guest] g = w.override [host, guest] g := by
    rw [lent, changeBuilder, override_setBuilder hmem', changeBuilder, override_setBuilder hmem']
  rw [inline, hreplaced, changeBuilder, hself]
  refine override_congr fun i hi' => ?_
  by_cases hi : i = host
  · rw [if_pos hi, if_pos hi, builder_lent_of_ne hne, builder_lent_self hne hguest]
    simp only [Builder.absorb, lend, Builder.clear, List.append_nil, Bool.or_comm]
  · obtain rfl : i = guest := (List.mem_cons.mp hi').elim (absurd · hi) List.mem_singleton.mp
    rw [if_neg hi, if_neg hi]

/-- A guest that has built gives its commands to the host, unless there are two queries. -/
theorem takeOver_back (h : Paired names host guest t) (own : Builder) :
    let r := (takeOver host guest).run (t.changeBuilder guest (giveBack own))
    (1 < together host guest t → r.1 ≠ .ok () ∧ r.2.builder host = t.builder host) ∧
      (together host guest t ≤ 1 → r.1 = .ok () ∧
        (r.2.builder host).stream = (t.builder host).stream ++ (t.builder guest).stream) := by
  have hback : Paired names host guest (t.changeBuilder guest (giveBack own)) := h.change rfl
  have hguest := builder_changeBuilder_self h.guest_lt (giveBack own)
  have hhost := builder_changeBuilder_of_ne t h.ne (giveBack own)
  have hq : (t.builder host).stream.queries + (giveBack own (t.builder guest)).stream.queries =
      together host guest t := rfl
  dsimp only
  rw [run_takeOver, hhost, hguest, hq]
  refine ⟨fun hfull => ?_, fun hfits => ?_⟩
  · rw [if_pos hfull]
    exact ⟨nofun, hhost⟩
  · rw [if_neg (Nat.not_lt.mpr hfits)]
    refine ⟨rfl, ?_⟩
    have htaken := builder_takenOver guest hback.host_lt
    rw [hguest, hhost] at htaken
    exact congrArg Builder.stream htaken

theorem Paired.lent (h : Paired names host guest w) :
    Paired names host guest (w.lent host guest) :=
  Paired.change (h.change rfl) rfl

theorem together_lent (hne : host ≠ guest) (hguest : guest < w.benches.length) :
    together host guest (w.lent host guest) = (w.builder host).stream.queries := by
  rw [together, builder_lent_of_ne hne, builder_lent_self hne hguest]
  rfl

/-- A guest on loan builds by its own program. -/
theorem run_build_lent (hne : host ≠ guest) (hguest : guest < w.benches.length)
    (hkind : (w.builder guest).kind = .script) (depth : Nat) (context : Value) :
    (Builder.build (depth + 1) guest context).run (w.lent host guest) =
      (Program.run (Builder.build depth) guest context (w.bench guest).program).run
        (w.lent host guest) := by
  rw [Builder.run_build, builder_lent_self hne hguest,
    (extends_lent host guest w).programs guest hguest]
  simp only [lend, Builder.clear, hkind]

/-- Splicing a builder whose program only adds is running its program in its place, with the
strictness of both: either both fail, and the splice leaves the commands as they were, or
neither does, and the commands are the same.  The splice builds one level deeper. -/
theorem splice_eq_inlined (names : List String) (w : Workshop) (host guest : BuilderId)
    (depth : Nat) (context : Value) (hne : host ≠ guest) (hhost : host < w.benches.length)
    (hguest : guest < w.benches.length) (hkind : (w.builder guest).kind = .script)
    (hair : (w.builder host).airframe = (w.builder guest).airframe)
    (hq : (w.builder host).stream.queries ≤ 1) (hsup : Supplies names [host, guest] w)
    (hadds : Program.onlyAdds names (w.bench guest).program = true) :
    let spliced := (splice (Builder.build (depth + 1)) host guest context).run w
    let inlined := (Program.run (Builder.build depth) host context (w.bench guest).program).run
      (w.changeBuilder host fun b => { b with strict := b.strict || (w.builder guest).strict })
    (spliced.1 = .ok () ↔ inlined.1 = .ok ()) ∧
      (spliced.1 = .ok () →
        (spliced.2.builder host).stream = (inlined.2.builder host).stream) ∧
      (spliced.1 ≠ .ok () → (spliced.2.builder host).stream = (w.builder host).stream) := by
  have hb := Builder.build_spares names depth
  have hpair : Paired names host guest w := ⟨hne, hhost, hguest, hair, hsup⟩
  have hlent := hpair.lent
  have hone : together host guest (w.lent host guest) ≤ 1 := together_lent hne hguest ▸ hq
  have hm : Mirrors host guest (w.builder guest)
      ((Program.run (Builder.build depth) guest context (w.bench guest).program).run
        (w.lent host guest))
      ((Program.run (Builder.build depth) host context (w.bench guest).program).run
        ((w.lent host guest).inline host guest (w.builder guest))) :=
    Program.run_mirrors hb _ hadds hlent hone
  rw [inline_start hne hguest] at hm
  have hspares : (Program.run (Builder.build depth) guest context (w.bench guest).program).Spares
      [host] (w.lent host guest) :=
    Program.run_spares hb _ hadds hlent.host_in hlent.supplies_host hlent.guest_notMem
  have hsame := hspares.builder_eq List.mem_cons_self hlent.host_lt
  rw [builder_lent_of_ne hne] at hsame
  have hpost (t : Workshop) (ht : (Program.run (Builder.build depth) guest context
      (w.bench guest).program).run (w.lent host guest) = (.ok (), t)) :
      Paired names host guest t := (Program.run_paired hb hadds hlent ht).1
  dsimp only
  rw [run_splice, run_build_lent hne hguest hkind]
  generalize (Program.run (Builder.build depth) guest context (w.bench guest).program).run
    (w.lent host guest) = r at hm hsame hpost
  generalize (Program.run (Builder.build depth) host context (w.bench guest).program).run
    (w.changeBuilder host _) = r' at hm
  cases hm with
  | @failed e e' t t' =>
      refine ⟨⟨nofun, nofun⟩, nofun, fun _ => ?_⟩
      dsimp only
      rw [builder_changeBuilder_of_ne _ hne, hsame]
  | @fits u t hfits =>
      obtain ⟨hok, hstream⟩ := (takeOver_back (hpost t rfl) _).2 hfits
      refine ⟨iff_of_true hok rfl, fun _ => ?_, fun h => absurd hok h⟩
      rw [builder_inline (hpost t rfl).host_lt]
      exact hstream
  | @full u e t t' hfull =>
      obtain ⟨hfault, hkept⟩ := (takeOver_back (hpost t rfl) _).1 hfull
      refine ⟨iff_of_false hfault nofun, fun h => absurd h hfault, fun _ => ?_⟩
      have hstream : (t.builder host).stream = (w.builder host).stream := by rw [hsame]
      exact (congrArg Builder.stream hkept).trans hstream

/-- A host that waits inside a block, a guest that asks and splices inside a block, and
a builder that it splices. -/
def nested : Workshop where
  benches :=
    [⟨{ stream := [.openIf (.text "ready") (.bool true) [], .wait (.int 1)],
        openConditions := [.text "ready"] }, []⟩,
      ⟨{ kind := .script, strict := true, stream := [.marker (.text "old")] },
        [.call (.query (.value (.text "GetMode")) (.value .null)),
          .block ⟨.onceIf, .value (.text "busy"), .value (.bool true), .value .null, .value .null⟩
            [.splice (.named "waiting") (.value (.object [("delay", .int 2)])),
              .call (.wait (.context "delay"))]]⟩,
      ⟨{ kind := .script }, [.call (.wait (.context "delay"))]⟩]
  names := [("waiting", 2)]

theorem splice_eq_inlined_nested :
    let spliced := (splice (Builder.build 2) 0 1 (.object [("delay", .int 3)])).run nested
    let inlined := (Program.run (Builder.build 1) 0 (.object [("delay", .int 3)])
      (nested.bench 1).program).run
        (nested.changeBuilder 0 fun b => { b with strict := b.strict || (nested.builder 1).strict })
    spliced.1 = .ok () ∧ inlined.1 = .ok () ∧
      (spliced.2.builder 0).stream = (inlined.2.builder 0).stream ∧
      (inlined.2.builder 0).stream =
        [.openIf (.text "ready") (.bool true) [], .wait (.int 1),
          .query (.text "GetMode") [],
          .openIf (.text "busy") (.bool true) [], .wait (.int 2), .wait (.int 3),
          .closeIf (.text "busy")] := by
  have hsup : Supplies ["waiting"] [0, 1] nested := by
    intro n hn id hid
    obtain rfl := List.mem_singleton.mp hn
    cases hid
    exact ⟨by decide, by decide, rfl⟩
  obtain ⟨hiff, hsame, -⟩ := splice_eq_inlined ["waiting"] nested 0 1 1
    (.object [("delay", .int 3)]) (by decide) (by decide) (by decide) rfl rfl (by decide) hsup rfl
  exact ⟨rfl, hiff.mp rfl, hsame rfl, rfl⟩

end Workshop

end Cockpit
