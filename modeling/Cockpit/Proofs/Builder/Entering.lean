import Cockpit.Proofs.Builder.Pressing

/-!
# Entries of values

A value is entered by the keys of its number and then the key that commits it.  They are a list
of actions like any other (`Builder.enterValue_of_filled`), so some of them may be left out, and
there may be none.

The reply of the call says whether there is a value.  Whether anything is added depends on the
wait and on the keys that the device knows.  So the reply is the truth about the stream unless a
value adds nothing (`Builder.enterValue_truthful_iff`): no wait is asked for, and the device knows
none of the keys or there are none at all.
-/

namespace Cockpit

open Op

/-- A text as a value, null without one. -/
def Value.ofText? (t : Option String) : Value := t.elim .null .text

/-! ## Keys of values -/

namespace Keypad

/-- The keys of a number are named by texts. -/
theorem ofNumber_texts (s : String) (signed : Bool) (sign : String) :
    ∃ names : List String, ofNumber s signed (.text sign) = names.map .text := by
  simp only [ofNumber]
  split
  · cases signed
    · exact ⟨_, rfl⟩
    · exact ⟨sign :: sign :: ofText _, rfl⟩
  · exact ⟨_, rfl⟩

theorem ofCleanNumber_texts (s : String) (signed : Bool) (sign : String) :
    ∃ names : List String, ofCleanNumber s signed (.text sign) = names.map .text := by
  simp only [ofCleanNumber]
  split
  · exact ⟨[], rfl⟩
  · split <;> exact ofNumber_texts _ _ _

/-- The keys of the number in a text, cleaned or not. -/
def numberIn (s : String) (signed clean : Bool) : List Value :=
  if clean then ofCleanNumber s signed (.text signKey) else ofNumber s signed (.text signKey)

/-- The keys that enter a value, with the one that commits it at the end. -/
def entryKeys (s : String) (enter : Option String) (signed clean : Bool) : List Value :=
  numberIn s signed clean ++ (enter.filter (· ≠ "")).toList.map .text

theorem entryKeys_texts (s : String) (enter : Option String) (signed clean : Bool) :
    ∃ names : List String, entryKeys s enter signed clean = names.map .text := by
  obtain ⟨names, hnames⟩ : ∃ names : List String, numberIn s signed clean = names.map .text := by
    cases clean
    · exact ofNumber_texts s signed signKey
    · exact ofCleanNumber_texts s signed signKey
  exact ⟨names ++ (enter.filter (· ≠ "")).toList, by rw [entryKeys, hnames, List.map_append]⟩

end Keypad

/-! ## Entering -/

namespace Builder

open Keypad (entryKeys)

variable {b : Builder} {d : Device}

/-- The commands that enter a value on a device. -/
def entryCommands (b : Builder) (d : Device) (value enter signed clean wait : Value) :
    Op Log.Journal (List Command) := do
  if !value.isSet then return []
  else
    let keys ← Keypad.numberKeys clean.isSet value signed.isSet
    b.actionCommands d (keys ++ if enter.isSet then [enter] else []) wait

/-- Enters a value on a device. -/
def enterValue (b : Builder) (d : Device) (value enter signed clean wait : Value) :
    Op Log.Journal (Builder × Reply) := do
  let cs ← b.entryCommands d value enter signed clean wait
  return (b.append cs, .flag value.isSet)

/-- A call enters a value on its device. -/
theorem apply_typeNumber (b : Builder) (source : DeviceSource Value)
    (value enter signed clean wait : Value) :
    b.apply (.typeNumber source value enter signed clean wait) =
      (liftM (b.device source) >>= fun d => b.enterValue d value enter signed clean wait) := by
  rw [apply, commandsOf, bind_assoc]
  rfl

theorem append_nil (b : Builder) : b.append [] = b :=
  congrArg (fun s => { b with stream := s }) (List.append_nil _)

/-- Without a value nothing is entered. -/
theorem enterValue_unset {value : Value} (h : value.isSet = false) (b : Builder) (d : Device)
    (enter signed clean wait : Value) :
    b.enterValue d value enter signed clean wait = pure (b, .flag false) := by
  have hcommands : b.entryCommands d value enter signed clean wait = pure [] := if_pos (by simp [h])
  rw [enterValue, hcommands, pure_bind, append_nil, h]

/-- A value is the list of its keys. -/
theorem enterValue_text {s : String} (h : s ≠ "") (b : Builder) (d : Device)
    (enter : Option String) (signed clean : Bool) (wait : Value) :
    b.enterValue d (.text s) (.ofText? enter) (.bool signed) (.bool clean) wait =
      (b.actionCommands d (entryKeys s enter signed clean) wait >>= fun cs =>
        pure (b.append cs, .flag true)) := by
  have hset : (Value.text s).isSet = true := bne_iff_ne.mpr h
  have hkeys : Keypad.numberKeys clean (.text s) signed = .ok (Keypad.numberIn s signed clean) :=
    if_pos hset
  have henter : (if (Value.ofText? enter).isSet then [Value.ofText? enter] else []) =
      (enter.filter (· ≠ "")).toList.map .text := by
    cases enter with
    | none => rfl
    | some e => by_cases he : e = "" <;> simp [Value.ofText?, Value.isSet, Option.filter, he]
  have hclean : (Value.bool clean).isSet = clean := rfl
  have hsigned : (Value.bool signed).isSet = signed := rfl
  have hcommands : b.entryCommands d (.text s) (.ofText? enter) (.bool signed) (.bool clean) wait =
      b.actionCommands d (entryKeys s enter signed clean) wait := by
    rw [entryCommands, if_neg (by simp [hset]), hclean, hsigned, hkeys, henter]
    rfl
  rw [enterValue, hcommands, hset]

/-! ## What is added -/

theorem trailed_eq_nil_iff {wait : Int} : {ps : List Press} →
    (trailed wait ps = [] ↔ ¬ 0 < wait ∧ ps = [])
  | [] => by
      rw [trailed]
      split <;> simp [*]
  | [p] => by simp [trailed]
  | p :: q :: ps => by simp [trailed]

/-- A list of actions that is not refused gives commands just if there is a wait or an action
that the device knows. -/
theorem actionCommands_ne_nil_iff {names : List String} {wait : Int} {cs : List Command}
    {j j' : Log.Journal}
    (h : (b.actionCommands d (names.map .text) (.int wait)).run j = (.ok cs, j')) :
    cs ≠ [] ↔ 0 < wait ∨ ∃ n ∈ names, d.Knows n := by
  by_cases hall : b.Lenient d ∨ ∀ n ∈ names, d.Knows n
  · obtain ⟨ps, hps, hgives, -⟩ := pressAll_logs hall
    have hcs : cs = trailed wait ps :=
      (Except.ok.inj (Prod.mk.inj ((actionCommands_logs hps wait j).symm.trans h)).1).symm
    have hnil : ps = [] ↔ ∀ n ∈ names, ¬ d.Knows n := by
      rw [← List.length_eq_zero_iff, ← hgives.length_eq, List.length_eq_zero_iff,
        List.filter_eq_nil_iff]
      simp only [decide_eq_true_eq]
    rw [hcs, Ne, trailed_eq_nil_iff, hnil, not_and_or, not_not]
    simp only [not_forall, not_not, exists_prop]
  · obtain ⟨hlenient, hunknown⟩ := not_or.mp hall
    -- The first name that is not known is refused, so the call does not come to an end.
    obtain ⟨n, hn⟩ : ∃ n, names.find? (¬ d.Knows ·) = some n := by
      rw [← Option.isSome_iff_exists, List.find?_isSome]
      simpa using hunknown
    obtain ⟨hne, known, rest, rfl, hknown⟩ := List.find?_eq_some_iff_append.mp hn
    have hrefused := pressAll_refused hlenient (n := n) (by simpa using hne) rest
      fun m hm => by simpa using hknown m hm
    exact absurd ((hrefused.bind_error j).symm.trans h) (by simp)

theorem length_lt_append_iff {cs : List Command} :
    b.stream.length < (b.append cs).stream.length ↔ cs ≠ [] := by
  rw [append, List.length_append, ← List.length_pos_iff]
  omega

/-- Whether a device gets anything from a value, for a wait or for a key that it knows. -/
def Yields (d : Device) (s : String) (enter : Option String) (signed clean : Bool) (wait : Int) :
    Prop :=
  0 < wait ∨ ∃ n, .text n ∈ entryKeys s enter signed clean ∧ d.Knows n

section

variable {enter : Option String} {signed clean : Bool} {wait : Int} {j j' : Log.Journal}
  {b' : Builder} {reply : Reply}

theorem enterValue_filled {s : String} (hs : s ≠ "")
    (h : (b.enterValue d (.text s) (.ofText? enter) (.bool signed) (.bool clean)
      (.int wait)).run j = (.ok (b', reply), j')) :
    reply = .flag true ∧ ∃ cs, b' = b.append cs ∧
      (cs ≠ [] ↔ Yields d s enter signed clean wait) := by
  obtain ⟨names, hnames⟩ := Keypad.entryKeys_texts s enter signed clean
  rw [enterValue_text hs, hnames] at h
  cases hrun : (b.actionCommands d (names.map .text) (.int wait)).run j with
  | mk r k =>
      cases r with
      | error e =>
          rw [run_bind_error hrun] at h
          exact absurd (Prod.mk.inj h).1 (by simp)
      | ok cs =>
          rw [run_bind_ok hrun, run_pure] at h
          obtain ⟨rfl, rfl⟩ := Prod.mk.inj (Except.ok.inj (Prod.mk.inj h).1)
          refine ⟨rfl, cs, rfl, ?_⟩
          rw [actionCommands_ne_nil_iff hrun, Yields, hnames]
          simp

/-- What a call that enters a value replies and adds, and when the reply is the truth about what
is added. -/
theorem enterValue_truthful_iff (b : Builder) (d : Device) (value enter : Option String)
    (signed clean : Bool) (wait : Int)
    (h : (b.enterValue d (.ofText? value) (.ofText? enter) (.bool signed) (.bool clean)
      (.int wait)).run j = (.ok (b', reply), j')) :
    -- A call does the same on a device of the airframe or one that its author holds.
    (∀ source, b.device source = .ok d →
      b.apply (.typeNumber source (.ofText? value) (.ofText? enter) (.bool signed) (.bool clean)
        (.int wait)) =
      b.enterValue d (.ofText? value) (.ofText? enter) (.bool signed) (.bool clean) (.int wait)) ∧
    ∃ told cs, reply = .flag told ∧ b' = b.append cs ∧
      -- The reply is whether there is a value.
      (told = true ↔ ∃ s, value = some s ∧ s ≠ "") ∧
      -- Something is added just if there is a value that gives something.
      (b.stream.length < b'.stream.length ↔
        ∃ s, value = some s ∧ s ≠ "" ∧ Yields d s enter signed clean wait) ∧
      -- So the reply is the truth just if every value gives something.
      ((told = true ↔ b.stream.length < b'.stream.length) ↔
        ∀ s, value = some s → s ≠ "" → Yields d s enter signed clean wait) := by
  refine ⟨fun source hd => by rw [apply_typeNumber, hd]; rfl, ?_⟩
  by_cases hvalue : ∃ s, value = some s ∧ s ≠ ""
  · obtain ⟨s, rfl, hs⟩ := hvalue
    obtain ⟨hreply, cs, rfl, hcs⟩ := enterValue_filled hs h
    refine ⟨true, cs, hreply, rfl, ?_, ?_, ?_⟩
    · simp [hs]
    · rw [length_lt_append_iff, hcs]
      simp [hs]
    · rw [length_lt_append_iff, hcs]
      simp [hs]
  · have hunset : (Value.ofText? value).isSet = false := by
      cases value with
      | none => rfl
      | some s => exact bne_eq_false_iff_eq.mpr (by simpa using hvalue)
    rw [enterValue_unset hunset, run_pure] at h
    obtain ⟨rfl, rfl⟩ := Prod.mk.inj (Except.ok.inj (Prod.mk.inj h).1)
    have hnone : ∀ s, value = some s → s = "" := by simpa using hvalue
    refine ⟨false, [], rfl, b.append_nil.symm, by simpa using hvalue, ?_, ?_⟩
    · simp only [Nat.lt_irrefl, false_iff]
      rintro ⟨s, hs, hne, -⟩
      exact hne (hnone s hs)
    · simp only [Nat.lt_irrefl, Bool.false_eq_true, iff_self, true_iff]
      exact fun s hs hne => absurd (hnone s hs) hne

end

theorem enterValue_truthful_iff_typist :
    ∃ j b', ((typist false).enterValue twoKeys (.text "1,1") (.text "NOPE") (.bool false)
        (.bool true) (.int 0)).run {} = (.ok (b', .flag true), j) ∧
      (typist false).stream.length < b'.stream.length := by
  obtain ⟨j, b', h⟩ : ∃ j b', ((typist false).enterValue twoKeys (.text "1,1") (.text "NOPE")
      (.bool false) (.bool true) (.int 0)).run {} = (.ok (b', .flag true), j) := ⟨_, _, rfl⟩
  obtain ⟨-, told, cs, -, -, -, hlonger, -⟩ :=
    enterValue_truthful_iff (typist false) twoKeys (some "1,1") (some "NOPE") false true 0 h
  refine ⟨j, b', h, ?_⟩
  exact hlonger.mpr ⟨"1,1", rfl, by decide, .inr ⟨"1", by decide +kernel, by decide⟩⟩

/-- A value of separators alone adds nothing, and the reply is true all the same. -/
theorem enterValue_untruthful_separator :
    ¬ ∀ told b', ((typist false).apply (.typeNumber (.held twoKeys) (.text ",") .null (.bool false)
        (.bool false) (.int 0))).run {} = (.ok (b', .flag told), {}) →
      (told = true ↔ (typist false).stream.length < b'.stream.length) := fun h =>
  Nat.lt_irrefl _ ((h true (typist false) rfl).mp rfl)

end Builder

end Cockpit
