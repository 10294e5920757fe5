import Cockpit.Proofs.Builder.Telling
import Cockpit.Proofs.Devices.Catalogs
import Cockpit.Proofs.Wire.Framed

/-!
# Lists of actions

A builder is asked for the actions of a device by their names, with one wait at the end.  Names
that the device lacks are left out and logged, or the first of them is refused and nothing is
added (`Builder.pressAll_logs`, `Builder.pressAll_refused`).

The wait goes into the last press, or stands alone if there is no press (`Builder.trailed`).
Either way it is sent as one object behind those of the presses (`Builder.objects_trailed`).  So
what a list of actions sends does not depend on which names are known at its end.

Copies of one name, texts and coordinates are asked for as lists of names.
`Builder.actions_reach_wire` puts these parts together.
-/

namespace Cockpit

open Op

/-! ## Objects of streams -/

namespace Stream

/-- The objects that a stream sends, in order. -/
def objects (s : Stream) : Except Fault (List Value) :=
  (s.mapM Command.objects).map List.flatten

theorem objects_cons (c : Command) (s : Stream) :
    objects (c :: s) = c.objects.bind fun os => (objects s).map (os ++ ·) := by
  rw [objects, objects, List.mapM_cons]
  cases c.objects with
  | error e => rfl
  | ok os => cases s.mapM Command.objects <;> rfl

theorem objects_singleton (c : Command) : objects [c] = c.objects := by
  rw [objects_cons]
  cases c.objects with
  | error e => rfl
  | ok os => exact congrArg Except.ok (List.append_nil os)

end Stream

namespace Command

theorem objects_wait (n : Int) : (Command.wait (.int n)).objects = .ok [waitObject n] :=
  objects_eq rfl (trailer_none rfl)

/-- A press without a wait sends one object.  With a wait it sends that and a wait. -/
theorem objects_thenWait {p : Press} (hp : p.postWait = .int 0) {n : Int} (hn : 0 < n) :
    (Command.action { p with postWait := .int n }).objects =
      (Command.action p).objects.map (· ++ [waitObject n]) := by
  have htrailer : (Command.action p).trailer = .ok [] :=
    trailer_int (n := 0) (congrArg some hp)
  have hwait : (Command.action { p with postWait := .int n }).trailer = .ok [waitObject n] := by
    rw [trailer_int rfl, if_pos hn]
  have hobject : (Command.action { p with postWait := .int n }).toObject =
      (Command.action p).toObject := rfl
  rw [objects, objects, hobject, hwait, htrailer]
  cases (Command.action p).toObject <;> rfl

end Command

/-! ## One wait behind presses -/

namespace Builder

/-- Presses as commands with one wait behind them, if it is positive: in the last press, or on its
own if there is none. -/
def trailed (wait : Int) : List Press → Stream
  | [] => if 0 < wait then [.wait (.int wait)] else []
  | [p] => [.action (if 0 < wait then { p with postWait := .int wait } else p)]
  | p :: q :: ps => .action p :: trailed wait (q :: ps)

theorem trailed_of_nonpos {wait : Int} (h : ¬ 0 < wait) :
    (ps : List Press) → trailed wait ps = ps.map .action
  | [] => if_neg h
  | [p] => by rw [trailed, if_neg h]; rfl
  | p :: q :: ps => congrArg (Command.action p :: ·) (trailed_of_nonpos h (q :: ps))

theorem waitAfterLast_eq {wait : Int} (h : 0 < wait) :
    {ps : List Press} → ps ≠ [] → (waitAfterLast (.int wait) ps).map (List.map .action) =
      .ok (trailed wait ps)
  | [], hne => absurd rfl hne
  | [p], _ => by
      have hmax : max 0 wait = wait := Int.max_eq_right (Int.le_of_lt h)
      rw [trailed, if_pos h, waitAfterLast, Press.thenWait, Value.toInt_int, Except.map, hmax]
      rfl
  | p :: q :: ps, _ => by
      have ih := waitAfterLast_eq h (List.cons_ne_nil q ps)
      rw [trailed, waitAfterLast]
      cases hq : waitAfterLast (.int wait) (q :: ps) with
      | error e =>
          rw [hq] at ih
          cases ih
      | ok qs =>
          rw [hq] at ih
          exact congrArg (fun cs => Except.ok (Command.action p :: cs)) (Except.ok.inj ih)

/-- All but the last of some presses, none of which has a wait, have none with a wait behind
them. -/
theorem postWait_trailed (wait : Int) : {ps : List Press} → (∀ p ∈ ps, p.postWait = .int 0) →
    ∀ c ∈ (trailed wait ps).dropLast, c.postWait? = some (.int 0)
  | [], _, c, hc => by
      rw [trailed] at hc
      split at hc <;> cases hc
  | [p], _, c, hc => nomatch hc
  | p :: q :: ps, hps, c, hc => by
      have hne : trailed wait (q :: ps) ≠ [] := by cases ps <;> exact List.cons_ne_nil _ _
      rw [trailed, List.dropLast_cons_of_ne_nil hne] at hc
      rcases List.mem_cons.mp hc with rfl | hc
      · exact congrArg some (hps p List.mem_cons_self)
      · exact postWait_trailed wait (fun r hr => hps r (List.mem_cons_of_mem p hr)) c hc

/-- A wait behind presses is one more object. -/
theorem objects_trailed (wait : Int) : {ps : List Press} → (∀ p ∈ ps, p.postWait = .int 0) →
    Stream.objects (trailed wait ps) =
      (Stream.objects (ps.map .action)).map
        (· ++ if 0 < wait then [Command.waitObject wait] else [])
  | [], _ => by
      rw [trailed]
      split
      · rw [Stream.objects_singleton, Command.objects_wait]
        rfl
      · rfl
  | [p], hps => by
      rw [trailed, List.map_singleton, Stream.objects_singleton, Stream.objects_singleton]
      split
      · exact Command.objects_thenWait (hps p List.mem_cons_self) ‹_›
      · cases (Command.action p).objects with
        | error e => rfl
        | ok os => exact congrArg Except.ok (List.append_nil os).symm
  | p :: q :: ps, hps => by
      have ih := objects_trailed wait fun r hr => hps r (List.mem_cons_of_mem p hr)
      have hcons : Stream.objects ((p :: q :: ps).map .action) =
          (Command.action p).objects.bind fun os =>
            (Stream.objects ((q :: ps).map .action)).map (os ++ ·) := Stream.objects_cons _ _
      rw [trailed, Stream.objects_cons, ih, hcons]
      cases (Command.action p).objects with
      | error e => rfl
      | ok os =>
          cases Stream.objects ((q :: ps).map .action) with
          | error e => rfl
          | ok rs => exact congrArg Except.ok (List.append_assoc os rs _).symm

end Builder

/-! ## Known and unknown names -/

namespace Device

variable {d : Device} {n : String} {p : Press}

/-- Whether a device has an action of a name. -/
def Knows (d : Device) (name : String) : Prop := ∃ a ∈ d.actions, a.name = .text name

instance (d : Device) : DecidablePred d.Knows := fun name =>
  inferInstanceAs (Decidable (∃ a ∈ d.actions, a.name = .text name))

/-- Whether a named action of a device gives a press, when it is asked for without a wait. -/
def Gives (d : Device) (name : String) (p : Press) : Prop :=
  (d.command (.text name)).Logs [] (.ok (some p))

theorem find?_text (d : Device) (name : String) :
    d.find? (.text name) = .ok (d.actions.find? (·.name.same (.text name))) := d.find?_eq rfl

theorem knows_iff : d.Knows n ↔ (d.actions.find? (·.name.same (.text n))).isSome = true := by
  rw [List.find?_isSome]
  exact exists_congr fun a => and_congr_right fun _ => Value.same_text_iff.symm

/-- An action that a device knows is found. -/
theorem Knows.find? (h : d.Knows n) : ∃ a, d.find? (.text n) = .ok (some a) := by
  obtain ⟨a, ha⟩ := Option.isSome_iff_exists.mp (knows_iff.mp h)
  exact ⟨a, by rw [find?_text, ha]⟩

/-- An action that a device does not know is not found. -/
theorem find?_unknown (h : ¬ d.Knows n) : d.find? (.text n) = .ok none := by
  rw [find?_text, Option.not_isSome_iff_eq_none.mp (mt knows_iff.mpr h)]

theorem command_found {a : Action} (h : d.find? (.text n) = .ok (some a)) :
    d.Gives n (d.plainPress a 0) := by
  have hlookup := d.lookup_logs (.text n)
  rw [h] at hlookup
  have hpress : d.press a (.int 0) = .ok (d.plainPress a 0) := by
    rw [press, Value.clampWait_int]
    rfl
  have hrest : ((liftM (d.press a (.int 0)) : Op Log.Journal Press) >>= fun p =>
      pure (some p)).Logs [] (.ok (some (d.plainPress a 0))) := by
    rw [hpress]
    exact logs_map (.ok (d.plainPress a 0)) some
  exact hlookup.bind hrest

/-- A known name gives a press without a wait. -/
theorem Knows.gives (h : d.Knows n) : ∃ p, d.Gives n p ∧ p.postWait = .int 0 := by
  obtain ⟨a, ha⟩ := h.find?
  exact ⟨_, command_found ha, rfl⟩

theorem command_unknown (h : ¬ d.Knows n) :
    if d.strict then (d.command (.text n)).Logs [] (.error (.unknownAction d.name [n]))
    else (d.command (.text n)).Logs [d.missed (.text n)] (.ok none) := by
  have hlookup := d.lookup_logs (.text n)
  rw [find?_unknown h] at hlookup
  dsimp only at hlookup
  split
  · rw [if_pos ‹_›] at hlookup
    exact hlookup.bind_error
  · rw [if_neg ‹_›] at hlookup
    exact hlookup.bind (logs_pure none)

end Device

namespace Builder

variable {b : Builder} {d : Device} {n : String}

/-- Whether neither a builder nor a device is strict. -/
def Lenient (b : Builder) (d : Device) : Prop := b.strict = false ∧ d.strict = false

theorem pressNamed_known {p : Press} (h : d.Knows n) (hp : d.Gives n p) :
    (b.pressNamed d (.text n) (.int 0)).Logs [] (.ok (some p)) := by
  have hcheck : b.checkName d (.text n) = .ok () := by
    obtain ⟨a, ha⟩ := h.find?
    rw [checkName, Device.require_singleton, ha]
    cases b.strict <;> rfl
  rw [pressNamed, hcheck]
  exact (logs_liftM (.ok ())).bind hp

theorem pressNamed_skipped (hl : b.Lenient d) (h : ¬ d.Knows n) :
    (b.pressNamed d (.text n) (.int 0)).Logs [d.missed (.text n)] (.ok none) := by
  have hcheck : b.checkName d (.text n) = .ok () := if_neg (by simp [hl.1])
  have hcommand := Device.command_unknown h
  rw [hl.2] at hcommand
  rw [pressNamed, hcheck]
  exact (logs_liftM (.ok ())).bind hcommand

theorem pressNamed_refused (hl : ¬ b.Lenient d) (h : ¬ d.Knows n) :
    (b.pressNamed d (.text n) (.int 0)).Logs [] (.error (.unknownAction d.name [n])) := by
  rw [pressNamed]
  cases hb : b.strict with
  | true =>
      have hcheck : b.checkName d (.text n) = .error (.unknownAction d.name [n]) := by
        rw [checkName, if_pos hb, Device.require_singleton, Device.find?_unknown h]
        rfl
      rw [hcheck]
      exact (logs_liftM (.error _)).bind_error
  | false =>
      have hcheck : b.checkName d (.text n) = .ok () := if_neg (by simp [hb])
      have hd : d.strict = true := by
        by_contra hd
        exact hl ⟨hb, Bool.eq_false_iff.mpr hd⟩
      have hcommand := Device.command_unknown h
      rw [if_pos hd] at hcommand
      rw [hcheck]
      exact (logs_liftM (.ok ())).bind hcommand

/-- What is logged of the names that a device does not know. -/
def missedNames (d : Device) (names : List String) : List Log.Record :=
  (names.filter (¬ d.Knows ·)).map fun n => d.missed (.text n)

/-- Known names give their presses in order.  Others are logged, if there may be any. -/
theorem pressAll_logs {names : List String} (h : b.Lenient d ∨ ∀ n ∈ names, d.Knows n) :
    ∃ ps, (b.pressAll d (names.map .text)).Logs (missedNames d names) (.ok ps) ∧
      List.Forall₂ d.Gives (names.filter d.Knows) ps ∧ ∀ p ∈ ps, p.postWait = .int 0 := by
  induction names with
  | nil => exact ⟨[], logs_pure [], .nil, nofun⟩
  | cons n names ih =>
      obtain ⟨ps, hps, hgives, hwaits⟩ :=
        ih (h.imp_right fun hn m hm => hn m (List.mem_cons_of_mem n hm))
      rw [missedNames, List.map_cons]
      by_cases hn : d.Knows n
      · obtain ⟨p, hp, hwait⟩ := hn.gives
        rw [List.filter_cons_of_neg (by simpa using hn), List.filter_cons_of_pos (by simpa using hn)]
        refine ⟨p :: ps, ?_, .cons hp hgives, List.forall_mem_cons.mpr ⟨hwait, hwaits⟩⟩
        exact (pressNamed_known hn hp).bind (hps.map (p :: ·))
      · have hl : b.Lenient d := h.resolve_right fun hall => hn (hall n List.mem_cons_self)
        rw [List.filter_cons_of_pos (by simpa using hn), List.filter_cons_of_neg (by simpa using hn)]
        refine ⟨ps, ?_, hgives, hwaits⟩
        exact (pressNamed_skipped hl hn).bind (hps.map id)

/-- The first unknown name is refused if it must be known. -/
theorem pressAll_refused (hl : ¬ b.Lenient d) (hn : ¬ d.Knows n) (rest : List String) :
    {known : List String} → (∀ m ∈ known, d.Knows m) →
      (b.pressAll d ((known ++ n :: rest).map .text)).Logs []
        (.error (.unknownAction d.name [n]))
  | [], _ => (pressNamed_refused hl hn).bind_error
  | m :: known, hknown => by
      have hm := hknown m List.mem_cons_self
      obtain ⟨p, hp, -⟩ := hm.gives
      have hrest := pressAll_refused hl hn rest fun k hk => hknown k (List.mem_cons_of_mem m hk)
      exact (pressNamed_known hm hp).bind hrest.bind_error

theorem waitCommand_int (n : Int) :
    waitCommand (.int n) = .ok (if 0 < n then [.wait (.int n)] else []) := by
  rw [waitCommand, Value.isPositive_int]
  by_cases hn : 0 < n
  · rw [if_pos hn, decide_eq_true hn]
    rfl
  · rw [if_neg hn, decide_eq_false hn]
    rfl

/-- The commands of actions are their presses with the wait behind them. -/
theorem actionCommands_logs {names : List Value} {rs : List Log.Record} {ps : List Press}
    (h : (b.pressAll d names).Logs rs (.ok ps)) (wait : Int) :
    (b.actionCommands d names (.int wait)).Logs rs (.ok (trailed wait ps)) := by
  rw [← List.append_nil rs]
  refine h.bind ?_
  cases ps with
  | nil =>
      rw [if_pos List.isEmpty_nil, waitCommand_int]
      exact logs_liftM _
  | cons p ps =>
      rw [if_neg (by simp), Value.isPositive_int]
      refine (logs_liftM (.ok _)).bind ?_
      by_cases hwait : 0 < wait
      · rw [if_pos (decide_eq_true hwait), ← waitAfterLast_eq hwait (List.cons_ne_nil p ps)]
        exact logs_map _ _
      · rw [if_neg (by simpa using hwait), trailed_of_nonpos hwait]
        exact logs_pure _

end Builder

/-! ## Requests for actions -/

namespace Device

variable {d : Device} {n : String} {p : Press}

/-- The text of an action is that of its press. -/
theorem Gives.write_logs (h : d.Gives n p) :
    (d.write (.text n)).Logs [] (Command.action p).write := h.bind (logs_liftM _)

/-- Presses are written as the texts of their actions. -/
theorem mapM_write {known : List String} {ps : List Press} (h : List.Forall₂ d.Gives known ps)
    (j : Log.Journal) : (ps.map Command.action).mapM Command.write =
      known.mapM fun n => ((d.write (.text n)).run j).1 := by
  induction h with
  | nil => rfl
  | cons hp _ ih =>
      rw [List.map_cons, List.mapM_cons, List.mapM_cons, ih, hp.write_logs j]

end Device

namespace Builder

variable {b : Builder} {d : Device}

/-- Whether commands are the presses of known actions with one wait behind them. -/
structure Carries (d : Device) (known : List String) (wait : Int) (cs : Stream) : Prop where
  /-- They send the objects of the actions and then the wait, if it is positive. -/
  objects : ∃ ps, List.Forall₂ d.Gives known ps ∧
    Stream.objects cs = (Stream.objects (ps.map .action)).map
      (· ++ if 0 < wait then [Command.waitObject wait] else [])
  /-- None but the last has a wait of its own. -/
  bare : ∀ c ∈ cs.dropLast, c.postWait? = some (.int 0)
  /-- Without a wait they are written as the texts of the actions. -/
  text : wait ≤ 0 → ∀ j, Stream.write cs =
    (known.mapM fun n => ((d.write (.text n)).run j).1).map Command.separator.intercalate

theorem carries_trailed {known : List String} {ps : List Press}
    (h : List.Forall₂ d.Gives known ps) (hwaits : ∀ p ∈ ps, p.postWait = .int 0) (wait : Int) :
    Carries d known wait (trailed wait ps) where
  objects := ⟨ps, h, objects_trailed wait hwaits⟩
  bare := postWait_trailed wait hwaits
  text hwait j := by
    rw [trailed_of_nonpos (Int.not_lt.mpr hwait), Stream.write, Device.mapM_write h j]

end Builder

/-- A workshop after commands were appended to a builder, or after a fault. -/
def Workshop.appended (id : BuilderId) (w : Workshop) : Except Fault Stream → Workshop
  | .ok cs => w.changeBuilder id (·.append cs)
  | .error _ => w

namespace Builder

variable {b : Builder} {d : Device}

/-- Whether a request for actions, with a wait at the end, tells some records and ends in the
commands that it appends or in a fault. -/
structure Ends (b : Builder) (d : Device) (names postNames : List String) (wait : Int)
    (rs : List Log.Record) (r : Except Fault Stream) : Prop where
  /-- The commands of the device. -/
  commands :
    (b.actionCommands d (names.map .text ++ postNames.map .text) (.int wait)).Logs rs r
  /-- A call appends them behind the others, and changes nothing if it fails. -/
  call : ∀ id w v ns ps, w.builder id = b → b.device v = .ok d →
    ns.itemsIfSet = .ok (names.map .text) → ps.itemsIfSet = .ok (postNames.map .text) →
      (Workshop.call id (.actions v ns ps (.int wait))).Tells w rs (r.map fun _ => .nothing)
        (w.appended id r)

variable {names postNames : List String} {wait : Int} {rs : List Log.Record}
  {r : Except Fault Stream}

theorem ends_of_logs
    (h : (b.actionCommands d (names.map .text ++ postNames.map .text) (.int wait)).Logs rs r) :
    b.Ends d names postNames wait rs r where
  commands := h
  call id w v ns ps hb hd hns hps := by
    subst hb
    have hcommands : ((w.builder id).commandsOf (.actions v ns ps (.int wait))).Logs rs r := by
      rw [commandsOf, hd, hns, hps]
      refine (logs_liftM (.ok d)).bind ?_
      exact (logs_liftM (.ok _)).bind ((logs_liftM (.ok _)).bind h)
    cases r with
    | error e => exact (tells_read id _ w).bind (hcommands.bind_error.tells w).bind_error
    | ok cs =>
        have happly : ((w.builder id).apply (.actions v ns ps (.int wait))).Logs rs
            (.ok ((w.builder id).append cs, .nothing)) := hcommands.map _
        rw [← List.append_nil rs]
        refine (tells_read id _ w).bind ((happly.tells w).bind ?_)
        exact (tells_change id _ w).bind (tells_pure _ _)

end Builder

/-! ## Calls that ask for lists of actions -/

theorem Value.itemsIfSet_list (xs : List Value) : (Value.list xs).itemsIfSet = .ok xs := by
  cases xs <;> rfl

namespace Builder

variable {b : Builder} {d : Device} {count : Int} {value : Value} {keys : List Value}

/-- Actions alone are asked for by their names. -/
theorem commandsOf_list (b : Builder) (v : DeviceSource Value) (names : List Value) (w : Value) :
    b.commandsOf (.actions v (.list names) .null w) =
      (liftM (b.device v) >>= fun d => b.actionCommands d names w) := by
  rw [commandsOf, Value.itemsIfSet_list]
  conv => rhs; rw [← List.append_nil names]
  rfl

/-- A call that appends the commands of a list of actions is a request for that list. -/
theorem apply_eq_list {c : Call Value} {v : DeviceSource Value} {w : Value} {names : List Value}
    (hc : b.apply c = (b.commandsOf c >>= fun cs => pure (b.append cs, .nothing)))
    (h : b.commandsOf c = (liftM (b.device v) >>= fun d => b.actionCommands d names w)) :
    b.apply c = b.apply (.actions v (.list names) .null w) := by
  rw [hc, h, ← commandsOf_list]
  rfl

theorem copies_int (n : Value) (h : count < Int.pow 2 63) :
    copies n (.int count) = .ok (List.replicate count.toNat n) := if_neg (Int.not_le.mpr h)

/-- A repeated action is as many copies of its name. -/
theorem apply_repeatAction (h : 1 ≤ count) (hcount : count < Int.pow 2 63)
    (v : DeviceSource Value) (n w : Value) :
    b.apply (.repeatAction v n (.int count) w) =
      b.apply (.actions v (.list (List.replicate count.toNat n)) .null w) := by
  refine apply_eq_list rfl ?_
  rw [commandsOf, Value.isBelow_int, decide_eq_false (Int.not_lt.mpr h), copies_int n hcount]
  rfl

/-- Without a count of at least one nothing is added. -/
theorem apply_repeatAction_of_lt (h : count < 1) {v : DeviceSource Value} (hd : b.device v = .ok d)
    (n w : Value) : (b.apply (.repeatAction v n (.int count) w)).Logs [] (.ok (b, .nothing)) := by
  have hcommands : (b.commandsOf (.repeatAction v n (.int count) w)).Logs [] (.ok []) := by
    rw [commandsOf, hd, Value.isBelow_int, decide_eq_true h]
    exact (logs_liftM (.ok d)).bind ((logs_liftM (.ok true)).bind (logs_pure []))
  have hb : b.append [] = b := congrArg (fun s => { b with stream := s }) (List.append_nil _)
  have happly : (b.apply (.repeatAction v n (.int count) w)).Logs [] (.ok (b.append [], .nothing)) :=
    hcommands.map _
  rwa [hb] at happly

/-- More copies than a list can have are refused. -/
theorem apply_repeatAction_of_le (h : Int.pow 2 63 ≤ count) {v : DeviceSource Value}
    (hd : b.device v = .ok d) (n w : Value) :
    (b.apply (.repeatAction v n (.int count) w)).Logs [] (.error .overflow) := by
  have hlarge : (1 : Int) ≤ Int.pow 2 63 := by decide
  have hcopies : copies n (.int count) = .error .overflow := if_pos h
  have hcommands : (b.commandsOf (.repeatAction v n (.int count) w)).Logs [] (.error .overflow) := by
    rw [commandsOf, hd, Value.isBelow_int, hcopies,
      decide_eq_false (Int.not_lt.mpr (Int.le_trans hlarge h))]
    exact (logs_liftM (.ok d)).bind ((logs_liftM (.ok false)).bind (logs_liftM _).bind_error)
  exact hcommands.bind_error

/-- A text is the list of its keys. -/
theorem apply_typeText (h : Keypad.textKeys value = .ok keys) (v : DeviceSource Value)
    (w : Value) :
    b.apply (.typeText v value w) = b.apply (.actions v (.list keys) .null w) := by
  refine apply_eq_list rfl ?_
  rw [commandsOf, h]
  rfl

/-- A coordinate is the list of its keys. -/
theorem apply_typeCoordinate (h : Keypad.coordinateKeys value = .ok keys) (v : DeviceSource Value)
    (w : Value) :
    b.apply (.typeCoordinate v value w) = b.apply (.actions v (.list keys) .null w) := by
  refine apply_eq_list rfl ?_
  rw [commandsOf, h]
  rfl

/-! ## Lists of actions on the wire -/

/-- What becomes of a request for lists of actions, and which calls are such requests. -/
theorem actions_reach_wire (b : Builder) (d : Device) (names postNames : List String)
    (wait : Int) :
    -- Known actions are sent in order with the wait behind them, and others are skipped.
    (b.Lenient d ∨ (∀ n ∈ names ++ postNames, d.Knows n) →
      ∃ cs, b.Ends d names postNames wait (missedNames d (names ++ postNames)) (.ok cs) ∧
        Carries d ((names ++ postNames).filter d.Knows) wait cs) ∧
    -- The first unknown action is refused if the builder or the device is strict.
    (¬ b.Lenient d → ∀ n, (names ++ postNames).find? (¬ d.Knows ·) = some n →
      b.Ends d names postNames wait [] (.error (.unknownAction d.name [n]))) ∧
    -- A repeated action is a list of copies, if a list can be that long, and nothing if it is to
    -- be done less than once.
    (∀ v n w count,
      (1 ≤ count → count < Int.pow 2 63 → b.apply (.repeatAction v n (.int count) w) =
        b.apply (.actions v (.list (List.replicate count.toNat n)) .null w)) ∧
      (b.device v = .ok d →
        (count < 1 →
          (b.apply (.repeatAction v n (.int count) w)).Logs [] (.ok (b, .nothing))) ∧
        (Int.pow 2 63 ≤ count →
          (b.apply (.repeatAction v n (.int count) w)).Logs [] (.error .overflow)))) ∧
    -- A text and a coordinate are the lists of their keys.
    (∀ v value keys w,
      (Keypad.textKeys value = .ok keys →
        b.apply (.typeText v value w) = b.apply (.actions v (.list keys) .null w)) ∧
      (Keypad.coordinateKeys value = .ok keys →
        b.apply (.typeCoordinate v value w) = b.apply (.actions v (.list keys) .null w))) := by
  refine ⟨fun h => ?_, fun hl n hn => ?_, fun v n w count => ⟨?_, fun hd => ⟨?_, ?_⟩⟩,
    fun v value keys w => ⟨?_, ?_⟩⟩
  · obtain ⟨ps, hps, hgives, hwaits⟩ := pressAll_logs h
    rw [List.map_append] at hps
    exact ⟨_, ends_of_logs (actionCommands_logs hps wait), carries_trailed hgives hwaits wait⟩
  · obtain ⟨hunknown, known, rest, hsplit, hknown⟩ := List.find?_eq_some_iff_append.mp hn
    have hrefused := pressAll_refused hl (n := n) (by simpa using hunknown) rest
      fun m hm => by simpa using hknown m hm
    rw [← hsplit, List.map_append] at hrefused
    exact ends_of_logs hrefused.bind_error
  · exact fun h hcount => apply_repeatAction h hcount v n w
  · exact fun h => apply_repeatAction_of_lt h hd n w
  · exact fun h => apply_repeatAction_of_le h hd n w
  · exact fun h => apply_typeText h v w
  · exact fun h => apply_typeCoordinate h v w

/-- A keypad with two keys. -/
def twoKeys : Device :=
  { id := .int 25
    name := .text "UFC"
    actions := [{ name := .text "1", code := .int 3001 }, { name := .text "ENTR", code := .int 3016 }] }

/-- A builder with that keypad on its airframe. -/
def typist (strict : Bool) : Builder :=
  { airframe := some { name := .text "F-16", devices := [twoKeys] }, strict }

theorem actions_reach_wire_typist :
    -- With unknown names in both lists, the last one among them.
    (∃ cs, (typist false).Ends twoKeys ["NOPE", "1"] ["ENTR", "GONE"] 200
        [twoKeys.missed (.text "NOPE"), twoKeys.missed (.text "GONE")] (.ok cs) ∧
      Carries twoKeys ["1", "ENTR"] 200 cs) ∧
    (typist true).Ends twoKeys ["1", "NOPE"] ["ENTR", "GONE"] 200 []
      (.error (.unknownAction (.text "UFC") ["NOPE"])) ∧
    (typist true).apply (.repeatAction (.named (.text "UFC")) (.text "1") (.int 2) (.int 0)) =
      (typist true).apply
        (.actions (.named (.text "UFC")) (.list [.text "1", .text "1"]) .null (.int 0)) ∧
    ((typist true).apply
      (.repeatAction (.named (.text "UFC")) (.text "1") (.int 0) (.int 200))).Logs []
        (.ok (typist true, .nothing)) ∧
    (typist true).apply (.typeCoordinate (.held twoKeys) (.text "N 1") (.int 0)) =
      (typist true).apply
        (.actions (.held twoKeys) (.list [.text "2", .text "1"]) .null (.int 0)) := by
  obtain ⟨hlenient, -⟩ := actions_reach_wire (typist false) twoKeys ["NOPE", "1"] ["ENTR", "GONE"] 200
  obtain ⟨-, hstrict, hrepeat, hkeys⟩ :=
    actions_reach_wire (typist true) twoKeys ["1", "NOPE"] ["ENTR", "GONE"] 200
  obtain ⟨cs, hcs⟩ := hlenient (.inl ⟨rfl, rfl⟩)
  exact ⟨⟨cs, hcs⟩, hstrict (fun h => nomatch h.1) "NOPE" rfl,
    (hrepeat _ _ _ 2).1 (by decide) (by decide), ((hrepeat _ _ _ 0).2 rfl).1 (by decide),
    (hkeys _ (.text "N 1") _ _).2 rfl⟩

end Builder

end Cockpit
