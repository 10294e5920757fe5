import Cockpit.Proofs.Settings.Histories

/-!
# Reading back what was set

A key has a declared type, and the path of the log file may be null instead.  A value of that
type is to be read back once it is set, whatever was done before.

A value that is set is converted to the type of the current one, not to the declared type.
`Settings.Keeps` says when that leaves it as it is.  `Config.readsBack_of_history` says that just
then it is read back, and that it is after every history that names nothing inner and offers the
key only what suits it (`Settings.Key.Suits`).  A truth value does not suit an integer.  Once it has
been set for one, no integer is read back (`Config.not_readsBack_truth`).
-/

namespace Cockpit

namespace Settings

open Op

variable {s : Settings} {k : Key} {u v w : Value}

/-! ## What a conversion keeps -/

/-- Whether a value is taken as it is in the place of a current one. -/
def Keeps (current value : Value) : Prop :=
  current = .null ∨ value = .null ∨ current.typeName = value.typeName ∨
    current.typeName = "int" ∧ value.typeName = "bool"

instance (u v : Value) : Decidable (Keeps u v) := inferInstanceAs (Decidable (_ ∨ _))

theorem toDouble_float (x : Double) : (Value.float x).toDouble = .ok x := by
  show (Scalar.real x).toDouble = .ok x
  unfold Scalar.toDouble
  rfl

theorem convert_of_typeName (h : u.typeName = v.typeName) : convert u v = .ok v := by
  cases u <;> cases v <;> try (simp [Value.typeName] at h; done)
  case float.float x => exact congrArg (Except.map Value.float) (toDouble_float x)
  all_goals rfl

theorem convert_of_keeps (h : Keeps u v) : convert u v = .ok v := by
  rcases h with rfl | rfl | htype | ⟨hu, hv⟩
  · rfl
  · cases u <;> rfl
  · exact convert_of_typeName htype
  · cases u <;> try (simp [Value.typeName] at hu; done)
    cases v <;> try (simp [Value.typeName] at hv; done)
    rfl

/-- What is not kept gets the type of the current value. -/
theorem convert_cases (h : convert u v = .ok w) :
    Keeps u v ∧ w = v ∨ ¬ Keeps u v ∧ w.typeName = u.typeName := by
  have mapped {α : Type} {x : Except Fault α} {f : α → Value} (hx : x.map f = .ok w) :
      ∃ a, w = f a := by
    cases x with
    | ok a => cases hx; exact ⟨a, rfl⟩
    | error e => cases hx
  by_cases hk : Keeps u v
  · exact Or.inl ⟨hk, Except.ok.inj (h.symm.trans (convert_of_keeps hk))⟩
  refine Or.inr ⟨hk, ?_⟩
  unfold convert at h
  split at h
  · exact absurd (Or.inl rfl) hk
  · exact absurd (Or.inr (Or.inl rfl)) hk
  · cases h; rfl
  · exact absurd (Or.inr (Or.inr (Or.inr ⟨rfl, rfl⟩))) hk
  · obtain ⟨_, rfl⟩ := mapped h; rfl
  · obtain ⟨_, rfl⟩ := mapped h; rfl
  · cases h; rfl
  · obtain ⟨_, rfl⟩ := mapped h; rfl
  · obtain ⟨_, rfl⟩ := mapped h; rfl

/-- A value is converted to itself just if it is kept. -/
theorem convert_eq_self_iff : convert u v = .ok v ↔ Keeps u v := by
  refine ⟨fun h => ?_, convert_of_keeps⟩
  rcases convert_cases h with ⟨hk, -⟩ | ⟨-, htype⟩
  · exact hk
  · exact Or.inr (Or.inr (Or.inl htype.symm))

/-! ## Declared types -/

/-- The declared type of a key. -/
def Key.typeName : Key → String
  | .timeout => "float"
  | .strictActions | .logStreams | .logToFile => "bool"
  | .level | .logFilePath => "str"
  | .maxLogFiles | .maxLogSize => "int"

/-- Whether a value is of the declared type of a key. -/
def Key.Declares (k : Key) (v : Value) : Prop :=
  v.typeName = k.typeName ∨ k = .logFilePath ∧ v = .null

instance (k : Key) (v : Value) : Decidable (k.Declares v) := inferInstanceAs (Decidable (_ ∨ _))

/-- Whether a value that is offered for a key can only give it a value of its declared type. -/
def Key.Suits (k : Key) (v : Value) : Prop :=
  k.Declares v ∨
    k ≠ .logFilePath ∧ v ≠ .null ∧ ¬ (k.typeName = "int" ∧ v.typeName = "bool")

instance (k : Key) (v : Value) : Decidable (k.Suits v) := inferInstanceAs (Decidable (_ ∨ _))

/-- Whether an offer is for another place than a key, or suits the key. -/
def SuitsFor (k : Key) (o : Place × Value) : Prop := o.1 = .key k → k.Suits o.2

instance (k : Key) (o : Place × Value) : Decidable (SuitsFor k o) :=
  inferInstanceAs (Decidable (_ → _))

theorem typeName_ne_null (k : Key) : Value.null.typeName ≠ k.typeName := by cases k <;> decide

theorem Key.Declares.keeps (hu : k.Declares u) (hv : k.Declares v) : Keeps u v := by
  rcases hu with hu | ⟨-, rfl⟩
  · rcases hv with hv | ⟨-, rfl⟩
    · exact Or.inr (Or.inr (Or.inl (hu.trans hv.symm)))
    · exact Or.inr (Or.inl rfl)
  · exact Or.inl rfl

/-- What suits a key is converted to its declared type. -/
theorem Key.Suits.declares (hv : k.Suits v) (hu : k.Declares u) (h : convert u v = .ok w) :
    k.Declares w := by
  rcases convert_cases h with ⟨hk, rfl⟩ | ⟨hk, htype⟩
  · rcases hv with hv | ⟨hpath, hnull, hbool⟩
    · exact hv
    · have hu : u.typeName = k.typeName := hu.resolve_right fun h => hpath h.1
      rcases hk with rfl | hw | htype | ⟨hint, htruth⟩
      · exact absurd hu (typeName_ne_null k)
      · exact absurd hw hnull
      · exact Or.inl (htype.symm.trans hu)
      · exact absurd ⟨hu.symm.trans hint, htruth⟩ hbool
  · rcases hu with hu | ⟨-, rfl⟩
    · exact Or.inl (htype.trans hu)
    · exact absurd (Or.inl rfl) hk

theorem declares_default (k : Key) : k.Declares (get {} k) := by
  cases k <;> first | exact Or.inl rfl | exact Or.inr ⟨rfl, rfl⟩

/-- An offer preserves what its conversion preserves of the value of a key. -/
theorem take_preserves {P : Value → Prop} {p : Place}
    (h : p = .key k → ∀ u w, P u → convert u v = .ok w → P w) :
    (take p v).Preserves fun s => P (s.get k) := by
  intro s hs
  show P (((take p v).run s).2.get k)
  rw [take, run_state_bind]
  cases hc : convert (s.value p) v with
  | error f =>
      dsimp only
      split
      · exact hs
      · exact hs
  | ok w =>
      show P ((s.put w p).value (.key k))
      by_cases hp : p = .key k
      · subst hp
        rw [value_put]
        exact h rfl _ w hs hc
      · rw [value_put_of_ne s w (Ne.symm hp)]
        exact hs

/-- Offers that suit a key leave it with a value of its declared type. -/
theorem take_declares {o : Place × Value} (ho : SuitsFor k o) :
    (take o.1 o.2).Preserves fun s => k.Declares (s.get k) :=
  take_preserves fun hp _ _ hu hc => (ho hp).declares hu hc

theorem lookup_name (s : Settings) (k : Key) :
    s.lookup (.text k.group.name) (.text k.name) = .ok (s.get k) := by
  have hk : k.group.key? k.name = some k := Section.key?_eq_some.mpr ⟨rfl, rfl⟩
  simp only [lookup, Value.needText, bind, Except.bind, ofName?_name, hk, reduceCtorEq, if_false]
  rfl

end Settings

namespace Config

open Op
open Settings (Key Place Keeps SuitsFor)

variable {c : Config} {k : Key} {v : Value}

/-! ## Reading back -/

/-- Whether a value that is set is read back, and no other setting changes. -/
structure ReadsBack (c : Config) (k : Key) (v : Value) : Prop where
  taken : ((set (.text k.group.name) (.text k.name) v).run c).1 = .ok true
  read : ((set (.text k.group.name) (.text k.name) v).run c).2.settings.lookup
    (.text k.group.name) (.text k.name) = .ok v
  others : ∀ p, p ≠ .key k →
    ((set (.text k.group.name) (.text k.name) v).run c).2.settings.value p = c.settings.value p

/-- A value is read back just if it is kept in the place of the current one. -/
theorem readsBack_iff : c.ReadsBack k v ↔ Keeps (c.settings.get k) v := by
  constructor
  · intro h
    obtain ⟨htaken, hread, -⟩ := h
    rw [Settings.lookup_name, run_set] at hread
    rw [run_set] at htaken
    cases hc : Settings.convert (c.settings.get k) v with
    | ok w =>
        rw [hc] at hread
        have hw : w = v := (Settings.get_set c.settings w k).symm.trans (Except.ok.inj hread)
        exact Settings.convert_eq_self_iff.mp (hw ▸ hc)
    | error f =>
        rw [hc] at htaken
        dsimp only at htaken
        split at htaken <;> cases htaken
  · intro h
    have hrun := run_set k v c
    rw [Settings.convert_of_keeps h] at hrun
    refine ⟨by rw [hrun], ?_, fun p hp => ?_⟩
    · rw [hrun, Settings.lookup_name]
      exact congrArg Except.ok (Settings.get_set c.settings v k)
    · rw [hrun]
      exact Settings.value_put_of_ne c.settings v hp

/-- After every history that names nothing inner a value is read back just if it is kept in the
place of the current one.  If the offers of the history suit a key, every value of the declared type
of the key is. -/
theorem readsBack_of_history (host : Host) (path : Value) (acts : List Act) (k : Key)
    (hproper : Proper acts (start host path)) :
    let c := ((runAll acts).run (start host path)).2
    (∀ v, c.ReadsBack k v ↔ Keeps (c.settings.get k) v) ∧
      (Offering (SuitsFor k) acts (start host path) → ∀ v, k.Declares v → c.ReadsBack k v) := by
  refine ⟨fun _ => readsBack_iff, fun h v hv => readsBack_iff.mpr ?_⟩
  have hdeclared : k.Declares (((runAll acts).run (start host path)).2.settings.get k) :=
    runAll_preserves (P := fun s => k.Declares (s.get k)) (Settings.declares_default k)
      (fun _ => Settings.take_declares) (fun _ hs => hs) hproper h (Settings.declares_default k)
  exact hdeclared.keeps hv

theorem suitsFor_set {l : Key} (h : SuitsFor k (.key l, v)) :
    ∀ o ∈ (Act.set (.text l.group.name) (.text l.name) v).offers c, SuitsFor k o :=
  forall_offers_set h

/-- A load of a text with the number of log files in quotes, null for a timeout, a NaN for the
number of log files, a reset, and null for a level. -/
def mixedActs : List Act :=
  [.load .null, .set (.text "query") (.text "timeout") .null,
    .set (.text "logging") (.text "max_log_files") (.float .nan), .reset,
    .set (.text "logging") (.text "level") .null]

theorem readsBack_after_mixed :
    let c := start (stored mixedText).host (stored mixedText).path
    Proper mixedActs c ∧ Offering (SuitsFor .maxLogFiles) mixedActs c ∧
      ((runAll mixedActs).run c).2.ReadsBack .maxLogFiles (.int 7) := by
  have hholds : Holds (Text.Utf8.encode mixedText) mixedEntries :=
    holds_encode (by decide) rfl
  have hgiven : given .null (start (stored mixedText).host (stored mixedText).path) =
      mixedEntries := given_eq (p := "/home/conf/file") rfl rfl ⟨_, rfl⟩ hholds
  have hoffers : Settings.offers mixedEntries = [(.key .timeout, .text "soon"),
      (.key .level, .text "DEBUG"), (.key .maxLogFiles, .text "7")] := rfl
  have hoffering : Offering (SuitsFor .maxLogFiles) mixedActs
      (start (stored mixedText).host (stored mixedText).path) := by
    refine ⟨?_, ?_, ?_, nofun, ?_, trivial⟩
    · show ∀ o ∈ Settings.offers (given .null _), SuitsFor .maxLogFiles o
      rw [hgiven, hoffers]
      decide
    · exact suitsFor_set (l := .timeout) (by decide)
    · exact suitsFor_set (l := .maxLogFiles) (by decide)
    · exact suitsFor_set (l := .level) (by decide)
  have hproper : Proper mixedActs (start (stored mixedText).host (stored mixedText).path) := by
    refine ⟨?_, rfl, rfl, rfl, rfl, trivial⟩
    show Settings.isProper (given .null _) = true
    rw [hgiven]
    rfl
  exact ⟨hproper, hoffering,
    (readsBack_of_history _ _ mixedActs _ hproper).2 hoffering _ (Or.inl rfl)⟩

/-- Where a truth value has been set for an integer, no integer is read back. -/
theorem not_readsBack_of_truth {group key : Value} {n m : Int} {b : Bool}
    (hk : target? group key = some k) (hc : c.settings.get k = .int n) :
    ¬ ((set group key (.bool b)).run c).2.ReadsBack k (.int m) := by
  obtain ⟨rfl, rfl⟩ := target?_eq_some.mp hk
  rw [readsBack_iff, run_set, hc]
  show ¬ Keeps ((c.settings.set (.bool b) k).get k) (.int m)
  rw [Settings.get_set]
  simp [Keeps, Value.typeName]

/-- Once a truth value has been set for the number of log files, a number is not read back. -/
theorem not_readsBack_truth :
    let acts := [.load .null, .set (.text "logging") (.text "max_log_files") (.bool true)]
    let c := ((runAll acts).run (start { files.root := "/home" } .null)).2
    Key.Declares .maxLogFiles (.int 7) ∧ ¬ c.ReadsBack .maxLogFiles (.int 7) := by
  -- the load finds no file, so the number is the default when the truth value comes
  have hgiven : given .null (start { files.root := "/home" } .null) = [] := by decide +kernel
  have hload : ((load .null).run (start { files.root := "/home" } .null)).2.settings.get
      .maxLogFiles = .int 5 := get_load hgiven .maxLogFiles
  simp only [run_runAll_cons, run_runAll_nil, Act.run, state_bind_pure]
  exact ⟨Or.inl rfl, not_readsBack_of_truth rfl hload⟩

end Config

end Cockpit
