import Cockpit.Proofs.Wire.Typed

/-!
# What the wire keeps of a stream

A wait after a press or a procedure call becomes a wait of its own on the wire, and
keys that would say nothing are left out.  `Stream.flat` takes the waits apart in
the stream itself.  Beyond that nothing is lost: a typed command is read off its
tag and payload (`Command.ofPayload_payload`), so two streams have one text exactly
when they are the same taken apart (`Stream.framed_eq_iff`).
-/

namespace Cockpit

theorem Value.IsInteger.isNumber {v : Value} (h : v.IsInteger) : v.IsNumber := by
  cases v with
  | int n => exact h
  | _ => exact h.elim

namespace Command

/-! ## Waits taken apart -/

/-- A command without the wait after it. -/
def bare : Command → Command
  | .action p => .action { p with postWait := .int 0 }
  | .exec fn args _ => .exec fn args (.int 0)
  | c => c

/-- A command with the wait after it as a command of its own. -/
def flat (c : Command) : List Command :=
  c.bare :: match c.postWait? with
    | none => []
    | some w =>
      match w.isPositive with
      | .ok true => [.wait w]
      | _ => []

theorem tag_bare (c : Command) : c.bare.tag = c.tag := by
  cases c <;> rfl

theorem payload_bare (c : Command) : c.bare.payload = c.payload := by
  cases c <;> rfl

theorem toObject_bare (c : Command) : c.bare.toObject = c.toObject := by
  rw [toObject, toObject, payload_bare, tag_bare]

theorem Typed.bare {number : Value → Prop} {c : Command} (h : c.Typed number) :
    c.bare.Typed number := by
  have hzero : (Value.int 0).IsInteger := by decide
  cases h with
  | action hd hc hn hu ht _ => exact .action hd hc hn hu ht hzero
  | exec fn args _ => exact .exec fn args hzero
  | wait h => exact .wait h
  | marker m => exact .marker m
  | query fn args => exact .query fn args
  | abort m => exact .abort m
  | openIf c e args => exact .openIf c e args
  | closeIf c => exact .closeIf c
  | openWhile c e h args => exact .openWhile c e h args
  | closeWhile c => exact .closeWhile c

theorem Typed.mono {number number' : Value → Prop} (hn : ∀ v, number v → number' v) {c : Command}
    (h : c.Typed number) : c.Typed number' := by
  cases h with
  | action hd hc hx hu ht hp => exact .action hd hc (hn _ hx) (hn _ hu) ht hp
  | wait h => exact .wait h
  | marker m => exact .marker m
  | query fn args => exact .query fn args
  | exec fn args h => exact .exec fn args h
  | abort m => exact .abort m
  | openIf c e args => exact .openIf c e args
  | closeIf c => exact .closeIf c
  | openWhile c e h args => exact .openWhile c e h args
  | closeWhile c => exact .closeWhile c

/-! ## Reading commands -/

/-- The arguments in a payload. -/
def argumentsOf (es : Entries) : List String :=
  match es.getD "prm" (.list []) with
  | .list xs => xs.map Value.toText
  | _ => []

/-- The command that a tag and a payload stand for. -/
def ofPayload (tag : String) (es : Entries) : Command :=
  match tag with
  | "Actn" => .action
    { device := es.getD "dev" .null
      code := es.getD "code" .null
      down := es.getD "dn" .null
      up := es.getD "up" (.int 0)
      delay := es.getD "dt" (.int 0) }
  | "Wait" => .wait (es.getD "dt" .null)
  | "Mark" => .marker (es.getD "mark" .null)
  | "Query" => .query (es.getD "fn" .null) (argumentsOf es)
  | "Exec" => .exec (es.getD "fn" .null) (argumentsOf es) (.int 0)
  | "Abort" => .abort (es.getD "msg" .null)
  | "If" => .openIf (es.getD "cond" .null) (es.getD "expt" .null) (argumentsOf es)
  | "EndIf" => .closeIf (es.getD "cond" .null)
  | "While" => .openWhile (es.getD "cond" .null) (es.getD "expt" .null)
    (es.getD "tout" (.int 0)) (argumentsOf es)
  | "EndWhile" => .closeWhile (es.getD "cond" .null)
  | _ => .blank

theorem map_toText (args : List String) : (args.map Value.text).map Value.toText = args := by
  rw [List.map_map]
  exact List.map_id args

/-- Arguments are read off after entries without any. -/
theorem argumentsOf_append (es : Entries) (h : es.lookup "prm" = none) (args : List String) :
    argumentsOf (es ++ argumentEntry args) = args := by
  cases args with
  | nil => simp [argumentsOf, argumentEntry, Entries.getD, h]
  | cons a args =>
      have hv : Entries.getD (es ++ argumentEntry (a :: args)) "prm" (.list []) =
          .list ((a :: args).map .text) := by
        simp [Entries.getD, argumentEntry, List.lookup_append, h]
      rw [argumentsOf, hv]
      exact map_toText (a :: args)

/-- A typed command without a wait after it is read off its tag and payload. -/
theorem ofPayload_payload {c : Command} (h : c.Typed Value.IsInteger) {es : Entries}
    (hp : c.payload = .ok es) : ofPayload c.tag es = c.bare := by
  cases h with
  | @action p device code down up delay _ =>
      obtain ⟨m, hm, -⟩ := device.exists_int
      obtain ⟨n, hn, -⟩ := code.exists_int
      obtain ⟨x, hx, -⟩ := down.exists_int
      obtain ⟨y, hy, -⟩ := up.exists_int
      obtain ⟨t, ht, -⟩ := delay.exists_int
      rw [payload, pressPayload_eq hm hn ht, hx, hy, Value.isNonzero_int] at hp
      obtain ⟨device, code, down, up, delay, postWait⟩ := p
      subst hm hn hx hy ht
      cases hp
      by_cases hy : y = 0
      · subst hy
        by_cases ht : t = 0
        · subst ht
          rfl
        · rw [if_pos ht]
          rfl
      · rw [if_pos (decide_eq_true hy)]
        by_cases ht : t = 0
        · subst ht
          rfl
        · rw [if_pos ht]
          rfl
  | wait h =>
      obtain ⟨n, rfl, -⟩ := h.exists_int
      cases hp
      rfl
  | marker mark =>
      cases hp
      rfl
  | query fn args =>
      cases hp
      exact congrArg (Command.query (.text fn)) (argumentsOf_append [("fn", .text fn)] rfl args)
  | exec fn args _ =>
      cases hp
      exact congrArg (Command.exec (.text fn) · (.int 0))
        (argumentsOf_append [("fn", .text fn)] rfl args)
  | abort message =>
      cases hp
      rfl
  | openIf c e args =>
      cases hp
      exact congrArg (Command.openIf (.text c) (.bool e))
        (argumentsOf_append [("cond", .text c), ("expt", .bool e)] rfl args)
  | closeIf c =>
      cases hp
      rfl
  | openWhile c e h args =>
      obtain ⟨n, rfl, -⟩ := h.exists_int
      rw [payload, timeoutEntry_int] at hp
      cases hp
      by_cases hn : n = 0
      · subst hn
        have ht : Entries.getD ([("cond", .text c), ("expt", .bool e)] ++ argumentEntry args)
            "tout" (.int 0) = .int 0 := by
          cases args <;> rfl
        have ha := argumentsOf_append [("cond", .text c), ("expt", .bool e)] rfl args
        change Command.openWhile (.text c) (.bool e) (Entries.getD ([("cond", .text c),
          ("expt", .bool e)] ++ argumentEntry args) "tout" (.int 0)) (argumentsOf ([("cond",
          .text c), ("expt", .bool e)] ++ argumentEntry args)) = .openWhile _ _ _ args
        rw [ht, ha]
      · rw [if_pos hn]
        exact congrArg (Command.openWhile (.text c) (.bool e) (.int n))
          (argumentsOf_append [("cond", .text c), ("expt", .bool e), ("tout", .int n)] rfl args)
  | closeWhile c =>
      cases hp
      rfl

/-- Typed commands are told apart by their objects, but for the waits after them. -/
theorem bare_eq_of_toObject {c d : Command} (hc : c.Typed Value.IsInteger)
    (hd : d.Typed Value.IsInteger) (h : c.toObject = d.toObject) : c.bare = d.bare := by
  obtain ⟨es, hes, -⟩ := (hc.mono fun _ => Value.IsInteger.isNumber).exists_payload
  obtain ⟨fs, hfs, -⟩ := (hd.mono fun _ => Value.IsInteger.isNumber).exists_payload
  rw [toObject, toObject, hes, hfs] at h
  simp only [Except.map, Except.ok.injEq, Value.object.injEq, List.cons.injEq, Prod.mk.injEq,
    Value.text.injEq, true_and, and_true] at h
  rw [← ofPayload_payload hc hes, ← ofPayload_payload hd hfs, h.1, h.2]

/-! ## Taking apart and sending -/

theorem bare_bare (c : Command) : c.bare.bare = c.bare := by
  cases c <;> rfl

theorem flat_int {c : Command} {n : Int} (h : c.postWait? = some (.int n)) :
    c.flat = c.bare :: if 0 < n then [.wait (.int n)] else [] := by
  rw [flat, h]
  dsimp only
  rw [Value.isPositive_int]
  by_cases hn : 0 < n
  · simp [hn]
  · simp [hn]

/-- The commands that a typed command is taken apart into are typed and have no waits
after them. -/
theorem Typed.flat {number : Value → Prop} {c : Command} (h : c.Typed number) :
    ∀ d ∈ c.flat, d.Typed number ∧ d.bare = d := by
  intro d hd
  cases hw : c.postWait? with
  | none =>
      rw [Command.flat, hw] at hd
      cases List.mem_singleton.mp hd
      exact ⟨h.bare, bare_bare c⟩
  | some v =>
      obtain ⟨n, rfl, hn⟩ := (h.postWait hw).exists_int
      rw [flat_int hw] at hd
      rcases List.mem_cons.mp hd with rfl | hd
      · exact ⟨h.bare, bare_bare c⟩
      · split at hd
        · cases List.mem_singleton.mp hd
          exact ⟨.wait hn, rfl⟩
        · cases hd

/-- The objects of a command are those of the commands that it is taken apart into. -/
theorem Typed.objects_eq {number : Value → Prop} {c : Command} (h : c.Typed number) :
    c.objects = c.flat.mapM toObject := by
  cases hw : c.postWait? with
  | none =>
      have hf : c.flat = [c.bare] := by rw [Command.flat, hw]
      rw [objects, trailer_none hw, hf, List.mapM_cons, toObject_bare]
      rfl
  | some v =>
      obtain ⟨n, rfl, -⟩ := (h.postWait hw).exists_int
      rw [objects, trailer_int hw, flat_int hw, List.mapM_cons, toObject_bare]
      by_cases hn : 0 < n
      · rw [if_pos hn, if_pos hn]
        rfl
      · rw [if_neg hn, if_neg hn]
        rfl

end Command

namespace Stream

/-- A stream with the waits after its commands as commands of their own. -/
def flat (s : Stream) : Stream := s.flatMap Command.flat

/-- The objects of a stream are those of the stream taken apart. -/
theorem mapM_flat {number : Value → Prop} {s : Stream} (hs : ∀ c ∈ s, c.Typed number) :
    s.flat.mapM Command.toObject = (s.mapM Command.objects).map List.flatten := by
  induction s with
  | nil => rfl
  | cons c s ih =>
      have ih := ih fun d hd => hs d (List.mem_cons_of_mem c hd)
      have hc : Stream.flat (c :: s) = c.flat ++ Stream.flat s := List.flatMap_cons
      rw [hc, List.mapM_append, List.mapM_cons, ih, ← (hs c List.mem_cons_self).objects_eq]
      cases c.objects with
      | error e => rfl
      | ok os => cases s.mapM Command.objects <;> rfl

theorem Typed.flat {number : Value → Prop} {s : Stream} (hs : ∀ c ∈ s, c.Typed number) :
    ∀ c ∈ s.flat, c.Typed number ∧ c.bare = c := by
  intro c hc
  obtain ⟨d, hd, hcd⟩ := List.mem_flatMap.mp hc
  exact (hs d hd).flat c hcd

/-- Streams without waits after commands are told apart by their objects. -/
theorem eq_of_mapM_toObject {s t : Stream} (hs : ∀ c ∈ s, c.Typed Value.IsInteger ∧ c.bare = c)
    (ht : ∀ c ∈ t, c.Typed Value.IsInteger ∧ c.bare = c) {os : List Value}
    (hso : s.mapM Command.toObject = .ok os) (hto : t.mapM Command.toObject = .ok os) : s = t := by
  induction s generalizing t os with
  | nil =>
      cases hso
      cases t with
      | nil => rfl
      | cons d t =>
          obtain ⟨o, os, he, -⟩ := mapM_cons_eq_ok hto
          cases he
  | cons c s ih =>
      obtain ⟨o, os, rfl, hc, hso⟩ := mapM_cons_eq_ok hso
      cases t with
      | nil => cases hto
      | cons d t =>
          obtain ⟨o', os', he, hd, hto⟩ := mapM_cons_eq_ok hto
          cases he
          obtain ⟨hct, hcb⟩ := hs c List.mem_cons_self
          obtain ⟨hdt, hdb⟩ := ht d List.mem_cons_self
          have hcd := Command.bare_eq_of_toObject hct hdt (hc.trans hd.symm)
          rw [hcb, hdb] at hcd
          rw [hcd, ih (fun e he => hs e (List.mem_cons_of_mem c he))
            (fun e he => ht e (List.mem_cons_of_mem d he)) hso hto]

/-- The text of a typed stream is that of its objects, which can be read back. -/
theorem framed_objects {s : Stream} (hs : ∀ c ∈ s, c.Typed Value.IsInteger) :
    ∃ a os, s.framed = .ok a ∧ s.flat.mapM Command.toObject = .ok os ∧
      a = Json.write .wire (.list os) ∧ Json.read a = .ok (.list os) := by
  obtain ⟨t, oss, ht, ho, hw, hr⟩ := s.exists_framed fun c hc =>
    (hs c hc).mono fun _ => Value.IsInteger.isNumber
  refine ⟨t, oss.flatten, ht, ?_, hw, hr⟩
  rw [mapM_flat hs, ho]
  rfl

/-- Two streams of typed commands have the same text exactly when they are the same
with the waits after commands taken apart. -/
theorem framed_eq_iff {s t : Stream} (hs : ∀ c ∈ s, c.Typed Value.IsInteger)
    (ht : ∀ c ∈ t, c.Typed Value.IsInteger) :
    ∃ a b, s.framed = .ok a ∧ t.framed = .ok b ∧ (a = b ↔ s.flat = t.flat) := by
  obtain ⟨a, os, ha, hos, haw, har⟩ := framed_objects hs
  obtain ⟨b, ps, hb, hps, hbw, hbr⟩ := framed_objects ht
  refine ⟨a, b, ha, hb, fun hab => ?_, fun hst => ?_⟩
  · rw [hab, hbr] at har
    cases har
    exact eq_of_mapM_toObject (Typed.flat hs) (Typed.flat ht) hos hps
  · rw [hst, hps] at hos
    cases hos
    rw [haw, hbw]

/-- A wait after a press is the same on the wire as a wait of its own. -/
theorem framed_eq_iff_wait :
    ∃ a b, framed [.exec (.text "f") [] (.int 5), .marker (.text "m")] = .ok a ∧
      framed [.exec (.text "f") [] (.int (-1)), .wait (.int 5), .marker (.text "m")] = .ok b ∧
      a = b := by
  have hint : ∀ n ∈ [(5 : Int), -1], (Value.int n).IsInteger := by decide
  have hs : ∀ c ∈ [Command.exec (.text "f") [] (.int 5), .marker (.text "m")],
      c.Typed Value.IsInteger := by
    intro c hc
    simp only [List.mem_cons, List.not_mem_nil, or_false] at hc
    rcases hc with rfl | rfl
    · exact .exec _ _ (hint 5 (by decide))
    · exact .marker _
  have ht : ∀ c ∈ [Command.exec (.text "f") [] (.int (-1)), .wait (.int 5), .marker (.text "m")],
      c.Typed Value.IsInteger := by
    intro c hc
    simp only [List.mem_cons, List.not_mem_nil, or_false] at hc
    rcases hc with rfl | rfl | rfl
    · exact .exec _ _ (hint (-1) (by decide))
    · exact .wait (hint 5 (by decide))
    · exact .marker _
  obtain ⟨a, b, ha, hb, hab⟩ := framed_eq_iff hs ht
  exact ⟨a, b, ha, hb, hab.mpr rfl⟩

end Stream

end Cockpit
