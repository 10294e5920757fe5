import Cockpit.Proofs.Builder.Origins
import Cockpit.Proofs.Wire.Typed

/-!
# Waits and bounds are positive

Authors may ask for waits and bounds of any sign, and what is not positive counts for nothing.
Every way into a stream sees to that in a place of its own: a press and a procedure call keep no
such wait, the last of several presses is given none, a wait of its own is not appended, and a
loop keeps no such bound.

`Command.Paced` is the invariant that these ways share.  A wait after a command and a bound of a
loop are not negative, and a wait of its own is positive.  `Request.Issues.paced` goes through
the ways one by one, where only integers are asked for.  On the wire a zero is left out, so there
every wait and every bound is positive (`Command.Paced.object`, `Command.Paced.trailer`).

With the origins of commands this gives `Program.waits_positive` for all runs.
-/

namespace Cockpit

open Op

/-! ## Integers -/

namespace Value

/-- Whether a value is an integer. -/
def IsWhole (v : Value) : Prop := v.wholeNumber?.isSome = true

instance : DecidablePred IsWhole :=
  fun v => inferInstanceAs (Decidable (v.wholeNumber?.isSome = true))

/-- Whether a value is an integer that is not negative. -/
def IsDuration (v : Value) : Prop := ∃ n, v.wholeNumber? = some n ∧ 0 ≤ n

variable {u v : Value} {n : Int}

theorem isWhole_zero : (Value.int 0).IsWhole := rfl

theorem scalar?_whole (h : v.wholeNumber? = some n) : v.scalar? = some (.int n) := by
  cases v <;> simp_all [scalar?, wholeNumber?]

theorem isPositive_whole (h : v.wholeNumber? = some n) : v.isPositive = .ok (decide (0 < n)) := by
  simp [isPositive, isAbove, toScalar, scalar?_whole h, Except.map, Scalar.lt_int]

theorem toInt_whole (h : v.wholeNumber? = some n) : v.toInt = .ok n := by
  cases v <;> simp_all [toInt, wholeNumber?]

theorem isSet_whole (h : v.wholeNumber? = some n) : v.isSet = decide (n ≠ 0) := by
  cases v with
  | int m =>
      cases h
      by_cases hn : n = 0 <;> simp [isSet, hn]
  | bool b =>
      cases h
      cases b <;> rfl
  | _ => cases h

/-- A wait that was clamped is not negative. -/
theorem IsWhole.clampWait (h : v.IsWhole) (hu : v.clampWait = .ok u) : u.IsDuration := by
  obtain ⟨n, hn⟩ := Option.isSome_iff_exists.mp h
  rw [Value.clampWait, isPositive_whole hn] at hu
  by_cases hpos : 0 < n
  · simp only [hpos, decide_true] at hu
    cases hu
    exact ⟨n, hn, Int.le_of_lt hpos⟩
  · simp only [hpos, decide_false] at hu
    cases hu
    exact ⟨0, rfl, Int.le_refl 0⟩

end Value

/-! ## Paced commands -/

/-- Whether the waits and the bound of a command are as they may stand in a stream. -/
inductive Command.Paced : Command → Prop where
  | action {p : Press} (h : p.postWait.IsDuration) : Paced (.action p)
  | wait {delay : Value} {n : Int} (h : delay.wholeNumber? = some n) (hn : 0 < n) :
    Paced (.wait delay)
  | marker (mark : Value) : Paced (.marker mark)
  | query (fn : Value) (args : List String) : Paced (.query fn args)
  | exec (fn : Value) (args : List String) {postWait : Value} (h : postWait.IsDuration) :
    Paced (.exec fn args postWait)
  | abort (message : Value) : Paced (.abort message)
  | openIf (condition expected : Value) (args : List String) :
    Paced (.openIf condition expected args)
  | closeIf (condition : Value) : Paced (.closeIf condition)
  | openWhile (condition expected : Value) {timeout : Value} (h : timeout.IsDuration)
    (args : List String) : Paced (.openWhile condition expected timeout args)
  | closeWhile (condition : Value) : Paced (.closeWhile condition)

/-- Whether an object of the wire is a wait for a positive number of milliseconds, opens a loop
of a positive number of rounds or without a bound, or is neither a wait nor a loop. -/
inductive Value.Paced : Value → Prop where
  | wait {n : Int} (hn : 0 < n) :
    Paced (.object [("f", .text "Wait"), ("a", .object [("dt", .int n)])])
  | loop {es : Entries} (h : ∀ v, es.get? "tout" = some v → ∃ n : Int, v = .int n ∧ 0 < n) :
    Paced (.object [("f", .text "While"), ("a", .object es)])
  | other {tag : String} {es : Entries} (hwait : tag ≠ "Wait") (hloop : tag ≠ "While") :
    Paced (.object [("f", .text tag), ("a", .object es)])

namespace Command

variable {c : Command}

/-- The wait after a paced command is not negative. -/
theorem Paced.postWait (h : c.Paced) {v : Value} (hv : c.postWait? = some v) : v.IsDuration := by
  cases h <;> cases hv <;> assumption

/-! ### On the wire -/

theorem timeoutEntry_whole {timeout : Value} {n : Int} (h : timeout.wholeNumber? = some n) :
    timeoutEntry timeout = .ok (if n ≠ 0 then [("tout", .int n)] else []) := by
  rw [timeoutEntry, Value.isSet_whole h, Value.toInt_whole h]
  by_cases hn : n = 0 <;> simp [hn, Except.map, pure, Except.pure]

/-- The bound of a loop is the one entry of its payload that has its key. -/
theorem get?_tout (condition expected : Value) (bound : Entries) (args : List String) :
    Entries.get? ([("cond", condition), ("expt", expected)] ++ bound ++ argumentEntry args) "tout" =
      bound.get? "tout" := by
  have hargs : (argumentEntry args).lookup "tout" = none := by
    rw [argumentEntry]
    split <;> rfl
  simp [Entries.get?, List.lookup_cons, List.lookup_append, hargs]

/-- Only a press can have something that cannot be sent. -/
theorem Paced.payload_cases (h : c.Paced) :
    (∃ es, c.payload = .ok es) ∨ ∃ p e, c = .action p ∧ pressPayload p = .error e := by
  cases h with
  | @action p h =>
      cases hp : pressPayload p with
      | error e => exact Or.inr ⟨p, e, rfl, hp⟩
      | ok es => exact Or.inl ⟨es, hp⟩
  | wait h _ => exact Or.inl ⟨_, by rw [payload, waitPayload, Value.toInt_whole h]; rfl⟩
  | openWhile c e h args =>
      obtain ⟨n, hn, -⟩ := h
      exact Or.inl ⟨_, by rw [payload, timeoutEntry_whole hn]; rfl⟩
  | _ => exact Or.inl ⟨_, rfl⟩

theorem toObject_eq_ok {o : Value} (ho : c.toObject = .ok o) :
    ∃ es, c.payload = .ok es ∧ o = .object [("f", .text c.tag), ("a", .object es)] := by
  rw [toObject] at ho
  cases hp : c.payload with
  | error e =>
      rw [hp] at ho
      cases ho
  | ok es =>
      rw [hp] at ho
      cases ho
      exact ⟨es, rfl, rfl⟩

/-- The object of a paced command is paced. -/
theorem Paced.object (h : c.Paced) {o : Value} (ho : c.toObject = .ok o) : o.Paced := by
  obtain ⟨es, hp, rfl⟩ := toObject_eq_ok ho
  cases h with
  | wait h hn =>
      rw [payload, waitPayload, Value.toInt_whole h] at hp
      cases hp
      exact .wait hn
  | openWhile condition expected h args =>
      obtain ⟨n, hn, hpos⟩ := h
      rw [payload, timeoutEntry_whole hn] at hp
      cases hp
      refine .loop fun v hv => ?_
      rw [get?_tout] at hv
      split at hv
      next hne =>
        cases hv
        exact ⟨n, rfl, by omega⟩
      next => cases hv
  | _ => exact .other (by simp [tag]) (by simp [tag])

/-- What a paced command sends behind its object is a wait of a positive time or nothing. -/
theorem Paced.trailer (h : c.Paced) : ∃ os, c.trailer = .ok os ∧ ∀ o ∈ os, o.Paced := by
  cases hw : c.postWait? with
  | none => exact ⟨[], trailer_none hw, nofun⟩
  | some v =>
      obtain ⟨n, hn, -⟩ := h.postWait hw
      refine ⟨if 0 < n then [waitObject n] else [], ?_, fun o ho => ?_⟩
      · rw [Command.trailer, hw]
        dsimp only
        rw [Value.isPositive_whole hn, toObject, payload, waitPayload, Value.toInt_whole hn]
        by_cases hpos : 0 < n <;> simp [hpos] <;> rfl
      · split at ho
        next hpos =>
          cases List.mem_singleton.mp ho
          exact .wait hpos
        next => cases ho

/-- All objects of a paced command are paced. -/
theorem Paced.objects (h : c.Paced) {os : List Value} (ho : c.objects = .ok os) :
    ∀ o ∈ os, o.Paced := by
  obtain ⟨o, ts, hobject, ht, rfl⟩ := exists_of_objects ho
  obtain ⟨ts', ht', hpaced⟩ := h.trailer
  cases ht.symm.trans ht'
  exact List.forall_mem_cons.mpr ⟨h.object hobject, hpaced⟩

/-- A paced command can be sent unless it is a press with something that cannot. -/
theorem Paced.objects_cases (h : c.Paced) :
    (∃ os, c.objects = .ok os) ∨ ∃ p e, c = .action p ∧ pressPayload p = .error e := by
  obtain ⟨ts, ht, -⟩ := h.trailer
  rcases h.payload_cases with ⟨es, hp⟩ | hpress
  · refine Or.inl ⟨.object [("f", .text c.tag), ("a", .object es)] :: ts, ?_⟩
    rw [Command.objects, toObject, hp, ht]
    rfl
  · exact Or.inr hpress

end Command

/-! ## Requests for integers -/

/-- The bound that a block asks for. -/
def BlockHead.bound? (h : BlockHead Value) : Option Value :=
  match h.kind with
  | .onceIf => none
  | .loopWhile => some h.timeout

/-- The wait or the bound that a request asks for. -/
def Request.time? (r : Request) : Option Value :=
  match r.asked with
  | .inl c => c.wait?
  | .inr h => h.bound?

variable {x : Command}

/-- The wait after a press was clamped. -/
theorem Device.press_paced {d : Device} {a : Action} {wait : Value} {p : Press}
    (hw : wait.IsWhole) (hp : d.press a wait = .ok p) : (Command.action p).Paced := by
  obtain ⟨u, hu, hp⟩ := exists_of_bind_ok hp
  cases hp
  exact .action (hw.clampWait hu)

/-- A press is never given a negative wait. -/
theorem Press.thenWait_paced {p q : Press} {wait : Value} (hw : wait.IsWhole)
    (hq : p.thenWait wait = .ok q) : (Command.action q).Paced := by
  obtain ⟨n, hn⟩ := Option.isSome_iff_exists.mp hw
  rw [thenWait, Value.toInt_whole hn] at hq
  cases hq
  exact .action ⟨max 0 n, rfl, Int.le_max_left 0 n⟩

namespace Builder

theorem Presses.paced {b : Builder} {c : Call Value} {wait : Value} {p : Press}
    (hp : b.Presses c wait p) (hw : wait.IsWhole) : (Command.action p).Paced := by
  obtain ⟨v, d, a, -, -, -, hpress⟩ := hp
  exact Device.press_paced hw hpress

/-- What a call for integers issues is paced, whichever way it takes. -/
theorem Issues.paced {b : Builder} {c : Call Value} (h : b.Issues c x)
    (hc : ∀ v ∈ c.wait?, v.IsWhole) : x.Paced := by
  cases h with
  | action hp => exact hp.paced (hc _ rfl)
  | customAction _ _ hp => exact Device.press_paced (hc _ rfl) hp
  | listed hp => exact hp.paced Value.isWhole_zero
  | last hw _ hq => exact Press.thenWait_paced (hc _ hw) hq
  | wait hw hpositive =>
      obtain ⟨n, hn⟩ := Option.isSome_iff_exists.mp (hc _ hw)
      rw [Value.isPositive_whole hn] at hpositive
      exact .wait hn (by simpa using hpositive)
  | marker m => exact .marker m
  | abort m => exact .abort m
  | errorAbort m => exact .abort _
  | exec hu xs => exact .exec _ xs ((hc _ rfl).clampWait hu)
  | query fn args xs => exact .query fn xs

end Builder

/-- The commands around a block are paced if its bound is an integer. -/
theorem BlockHead.Issues.paced {h : BlockHead Value} (hx : h.Issues x)
    (hh : ∀ v ∈ h.bound?, v.IsWhole) : x.Paced := by
  cases hx with
  | openIf _ xs => exact .openIf _ _ xs
  | openWhile hk hu xs => exact .openWhile _ _ ((hh _ (by rw [bound?, hk]; rfl)).clampWait hu) xs
  | closeIf => exact .closeIf _
  | closeWhile => exact .closeWhile _

/-- What a request for integers issues is paced. -/
theorem Request.Issues.paced {r : Request} (hx : r.Issues x) (hr : ∀ v ∈ r.time?, v.IsWhole) :
    x.Paced := by
  obtain ⟨b, asked, caught⟩ := r
  cases asked with
  | inl c => exact Builder.Issues.paced hx hr
  | inr h => exact BlockHead.Issues.paced hx hr

/-- The commands around an upload are paced. -/
theorem Command.FramesUpload.paced (h : x.FramesUpload) : x.Paced := by
  rcases h.exec_or_marker with ⟨fn, args, rfl⟩ | ⟨mark, rfl⟩
  · exact .exec _ args ⟨0, rfl, Int.le_refl 0⟩
  · exact .marker _

/-! ## Runs -/

/-- Let a program run on builders with empty streams, and let all waits and bounds that it asks
for be integers.  However it ends, every command of every stream then has no negative wait after
it, and its objects on the wire hold no wait and no bound that is not positive.  It has these
objects unless it is a press with something that cannot be sent. -/
theorem Program.waits_positive (depth : Nat) {ss : Program} {id : BuilderId} {context : Value}
    {w : Workshop} (hw : ∀ i, (w.builder i).stream = [])
    (hr : ∀ r ∈ Program.requests (Builder.build depth) (Builder.requests depth) id context ss w,
      ∀ v ∈ r.time?, v.IsWhole) :
    ∀ i, ∀ c ∈ (((Program.run (Builder.build depth) id context ss).run w).2.builder i).stream,
      (∀ v, c.postWait? = some v → ∃ n, v.wholeNumber? = some n ∧ 0 ≤ n) ∧
      (∀ os, c.objects = .ok os → ∀ o ∈ os, o.Paced) ∧
      ((∃ os, c.objects = .ok os) ∨
        ∃ p e, c = .action p ∧ Command.pressPayload p = .error e) := by
  intro i c hc
  have hpaced : c.Paced := by
    cases Program.run_origin depth hc with
    | held h =>
        rw [hw] at h
        cases h
    | issued hmem h => exact h.paced (hr _ hmem)
    | framing h => exact h.paced
  exact ⟨fun v hv => hpaced.postWait hv, fun os ho => hpaced.objects ho, hpaced.objects_cases⟩

/-- A keypad with one key. -/
def Device.oneKey : Device :=
  { id := .int 21, name := .text "UFC", isSealed := true,
    actions := [{ name := .text "1", code := .int 3001 }] }

/-- A builder over that keypad, and another one that waits and loops as its context says. -/
def Workshop.patient : Workshop :=
  let keypad : Airframe := { name := .text "F-16", devices := [Device.oneKey] }
  { benches :=
      [⟨{ airframe := some keypad }, []⟩,
        ⟨{ kind := .script, airframe := some keypad },
          [.call (.wait (.context "pause")),
            .block ⟨.loopWhile, .value (.text "moving"), .value (.bool true), .value .null,
                .context "rounds"⟩
              [.call (.actions (.named (.value (.text "UFC")))
                (.value (.list [.text "1", .text "NOPE"])) (.value .null) (.context "pause"))]]⟩]
    names := [("pausing", 1)] }

/-- A program that gives up on a loop, splices the other builder without and with a wait, and
waits after what it adds itself. -/
def Program.patient : Program :=
  [.attempt
      [.block ⟨.loopWhile, .value (.text "busy"), .value (.bool true), .value .null,
          .value (.int 9)⟩ [.call (.wait (.value (.int 50))), .raise .noMember]],
    .splice (.named "pausing") (.value (.object [("pause", .int (-5)), ("rounds", .int (-3))])),
    .splice (.named "pausing") (.value (.object [("pause", .int 250), ("rounds", .int 7)])),
    .call (.action (.held Device.oneKey) (.value (.text "1")) (.value (.int (-20)))),
    .call (.exec (.value (.text "NOP")) (.value .null) (.value (.int 100)))]

theorem Program.waits_positive_patient :
    let requests := Program.requests (Builder.build 2) (Builder.requests 2) 0 .null patient
      Workshop.patient
    let stream := (((Program.run (Builder.build 2) 0 .null patient).run Workshop.patient).2.builder
      0).stream
    let press (wait : Int) : Command :=
      .action ⟨.int 21, .int 3001, .int 1, .int 0, .int 0, .int wait⟩
    requests.filterMap Request.time? = [.int 9, .int 50, .int (-5), .int (-3), .int (-5), .int 250,
      .int 7, .int 250, .int (-20), .int 100] ∧
    (∀ r ∈ requests, ∀ v ∈ r.time?, v.IsWhole) ∧
    stream =
      [.openWhile (.text "moving") (.bool true) (.int 0) [], press 0, .closeWhile (.text "moving"),
        .wait (.int 250),
        .openWhile (.text "moving") (.bool true) (.int 7) [], press 250,
        .closeWhile (.text "moving"),
        press 0, .exec (.text "NOP") [] (.int 100)] ∧
    ∀ c ∈ stream, ∀ os, c.objects = .ok os → ∀ o ∈ os, o.Paced := by
  have hempty : ∀ i, (Workshop.patient.builder i).stream = [] := by
    intro i
    rcases i with _ | _ | i <;> rfl
  have hwhole : ∀ r ∈ Program.requests (Builder.build 2) (Builder.requests 2) 0 .null patient
      Workshop.patient, ∀ v ∈ r.time?, v.IsWhole := by
    decide
  exact ⟨rfl, hwhole, rfl, fun c hc => (Program.waits_positive 2 hempty hwhole 0 c hc).2.1⟩

end Cockpit
