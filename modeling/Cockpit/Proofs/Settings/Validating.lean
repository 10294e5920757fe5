import Cockpit.Proofs.Settings.ReadBack
import Cockpit.Settings.Validity

/-!
# Validating settings

A validation is to give its complaints whatever the settings hold, and to have complaints about
all settings that are not sound (`Settings.Sound`).

It compares the level and three numbers without asking for their types.  So it stops where one of
them is null or of another type (`Settings.Checkable`).  It complains of a number that is below or
above a bound, and a NaN is neither (`Settings.Ordered`).  `Config.validates_of_history` says that
nothing else can go wrong after a history that names nothing inner, and that nothing goes wrong if
it offers no null for these settings and no NaN for the timeout.  A null and a NaN can be set, and
be in a file (`Config.not_validates_null_nan`).
-/

namespace Cockpit

/-! ## The order of numbers -/

namespace Scalar

variable {a b : Scalar}

theorem compareRanks_swap (p q : Int × Int) :
    Double.compareRanks q p = (Double.compareRanks p q).swap := by
  rw [Double.compareRanks, Double.compareRanks, Ordering.swap_then, ← Std.OrientedOrd.eq_swap,
    ← Std.OrientedOrd.eq_swap]

/-- Two numbers in the other order have the opposite order, or none if one of them is NaN. -/
theorem compare?_swap (a b : Scalar) : b.compare? a = (a.compare? b).map Ordering.swap := by
  cases a with
  | int m =>
      cases b with
      | int n => exact congrArg some Std.OrientedOrd.eq_swap
      | real y =>
          cases h : y.compareInt? m <;> simp only [compare?, h, Option.map, Ordering.swap_swap]
  | real x =>
      cases b with
      | int n => rfl
      | real y =>
          cases hx : x.rank <;> cases hy : y.rank <;> simp only [compare?, Double.compare?, hx, hy]
          · rfl
          · rfl
          · rfl
          · exact congrArg some (compareRanks_swap _ _)

/-- Whether a number is no NaN. -/
def IsOrdered (a : Scalar) : Prop := a ≠ .real .nan

theorem exists_rank {x : Double} (h : (Scalar.real x).IsOrdered) : ∃ r, x.rank = some r := by
  cases x with
  | nan => exact absurd rfl h
  | inf s => cases s <;> exact ⟨_, rfl⟩
  | finite s u => exact ⟨_, rfl⟩

theorem IsOrdered.exists_order (ha : a.IsOrdered) (hb : b.IsOrdered) :
    ∃ o, a.compare? b = some o := by
  cases a with
  | int m =>
      cases b with
      | int n => exact ⟨_, rfl⟩
      | real y =>
          obtain ⟨r, hr⟩ := exists_rank hb
          exact ⟨_, by rw [compare?, Double.compareInt?, hr]; rfl⟩
  | real x =>
      obtain ⟨r, hr⟩ := exists_rank ha
      cases b with
      | int n => exact ⟨_, by rw [compare?, Double.compareInt?, hr]; rfl⟩
      | real y =>
          obtain ⟨q, hq⟩ := exists_rank hb
          exact ⟨_, by rw [compare?, Double.compare?, hr, hq]⟩

/-- Of two numbers that are no NaN, the first lies below the second or is at least as large. -/
theorem IsOrdered.lt_eq (ha : a.IsOrdered) (hb : b.IsOrdered) : a.lt b = !b.le a := by
  obtain ⟨o, ho⟩ := ha.exists_order hb
  rw [lt, le, compare?_swap a b, ho]
  cases o <;> rfl

theorem nan_compare? (a : Scalar) : (Scalar.real .nan).compare? a = none := by cases a <;> rfl

theorem compare?_nan (a : Scalar) : a.compare? (.real .nan) = none := by
  rw [compare?_swap (.real .nan) a, nan_compare?]
  rfl

theorem nan_lt (a : Scalar) : (Scalar.real .nan).lt a = false := by
  rw [lt, nan_compare?]
  rfl

theorem lt_nan (a : Scalar) : a.lt (.real .nan) = false := by
  rw [lt, compare?_nan]
  rfl

theorem nan_le (a : Scalar) : (Scalar.real .nan).le a = false := by
  rw [le, nan_compare?]
  rfl

end Scalar

namespace Settings

open Op

variable {s : Settings} {u v w : Value}

/-! ## Sound settings -/

/-- What validation is to make sure of. -/
structure Sound (s : Settings) : Prop where
  timeout : ∃ t, s.timeout.scalar? = some t ∧
    (Scalar.real timeoutMin).le t ∧ t.le (.real timeoutMax)
  level : ∃ name, s.level = .text name ∧ Text.upper name ∈ Log.Level.all.map Log.Level.name
  logFile : s.logToFile.isSet → s.logFilePath.isSet
  maxLogFiles : ∃ n, s.maxLogFiles.scalar? = some n ∧ (Scalar.int 0).lt n
  maxLogSize : ∃ n, s.maxLogSize.scalar? = some n ∧ (Scalar.int 0).lt n

/-- Whether a validation ends in its complaints, and has some if the settings are not sound. -/
structure Validates (s : Settings) : Prop where
  returns : ∃ cs, s.validate = .ok cs
  sound : s.validate = .ok [] → s.Sound

/-- Whether the settings that a validation looks into have types that allow it. -/
structure Checkable (s : Settings) : Prop where
  timeout : ∃ t, s.timeout.scalar? = some t
  level : ∃ name, s.level = .text name
  maxLogFiles : ∃ n, s.maxLogFiles.scalar? = some n
  maxLogSize : ∃ n, s.maxLogSize.scalar? = some n

/-- Whether no number that a validation compares is a NaN. -/
structure Ordered (s : Settings) : Prop where
  timeout : ∀ t, s.timeout.scalar? = some t → t.IsOrdered
  maxLogFiles : ∀ n, s.maxLogFiles.scalar? = some n → n.IsOrdered
  maxLogSize : ∀ n, s.maxLogSize.scalar? = some n → n.IsOrdered

/-! ## What a validation finds -/

theorem isSome_levelOf? {name : String} :
    (levelOf? name).isSome ↔ Text.upper name ∈ Log.Level.all.map Log.Level.name := by
  rw [levelOf?, Log.Level.ofName?, List.find?_isSome, List.mem_map]
  simp only [beq_iff_eq]

theorem complain_eq_nil {wrong : Bool} {text : String} :
    complain wrong text = [] ↔ wrong = false := by
  cases wrong <;> simp [complain]

/-- A number can be compared, and nothing else. -/
theorem toScalar_eq_ok {v : Value} {a : Scalar} : v.toScalar = .ok a ↔ v.scalar? = some a := by
  rw [Value.toScalar]
  cases v.scalar? <;> simp

/-- A timeout that is a number is complained of just if it is below or above a bound. -/
theorem queryComplaints_eq {t : Scalar} (ht : s.timeout.scalar? = some t) :
    ∃ cs, s.queryComplaints = .ok cs ∧
      (cs = [] ↔ t.lt (.real timeoutMin) = false ∧ (Scalar.real timeoutMax).lt t = false) := by
  have hscalar : s.timeout.toScalar = .ok t := toScalar_eq_ok.mpr ht
  simp only [queryComplaints, Value.isBelow, Value.isAbove, hscalar, Except.map, bind, Except.bind]
  cases hlow : t.lt (.real timeoutMin) with
  | true => exact ⟨_, rfl, by simp [complain]⟩
  | false => exact ⟨_, rfl, complain_eq_nil.trans (by simp)⟩

/-- Of a logging section of the right types only what is not sound is complained of. -/
theorem loggingComplaints_eq {name : String} {n m : Scalar} (hl : s.level = .text name)
    (hn : s.maxLogFiles.scalar? = some n) (hm : s.maxLogSize.scalar? = some m) :
    ∃ cs, s.loggingComplaints = .ok cs ∧
      (cs = [] ↔ (levelOf? name).isSome ∧ (s.logToFile.isSet → s.logFilePath.isSet) ∧
        n.le (.int 0) = false ∧ m.le (.int 0) = false) := by
  have hfiles : s.maxLogFiles.toScalar = .ok n := toScalar_eq_ok.mpr hn
  have hsize : s.maxLogSize.toScalar = .ok m := toScalar_eq_ok.mpr hm
  simp only [loggingComplaints, Value.isAtMost, Value.textMember, hl, hfiles, hsize, Except.map,
    bind, Except.bind]
  refine ⟨_, rfl, ?_⟩
  simp only [List.append_eq_nil_iff, complain_eq_nil]
  simp [and_assoc]

/-- A validation that can be made ends in no complaint just if neither section has one. -/
theorem validate_eq {qs ls : List String} (hq : s.queryComplaints = .ok qs)
    (hl : s.loggingComplaints = .ok ls) :
    ∃ cs, s.validate = .ok cs ∧ (cs = [] ↔ qs = [] ∧ ls = []) := by
  simp only [validate, hq, hl, bind, Except.bind]
  refine ⟨_, rfl, ?_⟩
  cases qs <;> cases ls <;> simp

theorem Checkable.returns (h : s.Checkable) : ∃ cs, s.validate = .ok cs := by
  obtain ⟨⟨t, ht⟩, ⟨name, hname⟩, ⟨n, hn⟩, ⟨m, hm⟩⟩ := h
  obtain ⟨qs, hq, -⟩ := queryComplaints_eq ht
  obtain ⟨ls, hl, -⟩ := loggingComplaints_eq hname hn hm
  obtain ⟨cs, hcs, -⟩ := validate_eq hq hl
  exact ⟨cs, hcs⟩

/-- What is compared is a number, if the comparison returns. -/
theorem exists_scalar {v : Value} {f : Scalar → Bool} {b : Bool} (h : v.toScalar.map f = .ok b) :
    ∃ a, v.scalar? = some a := by
  rw [Value.toScalar] at h
  cases hv : v.scalar? with
  | some a => exact ⟨a, rfl⟩
  | none =>
      rw [hv] at h
      cases h

/-- A validation that returns has looked into settings of types that allow it. -/
theorem checkable_of_validate {cs : List Complaint} (h : s.validate = .ok cs) : s.Checkable := by
  obtain ⟨qs, hq, h⟩ := exists_of_bind_ok h
  obtain ⟨ls, hl, -⟩ := exists_of_bind_ok h
  obtain ⟨low, hlow, -⟩ := exists_of_bind_ok hq
  obtain ⟨name, hname, hl⟩ := exists_of_bind_ok hl
  obtain ⟨files, hfiles, hl⟩ := exists_of_bind_ok hl
  obtain ⟨size, hsize, -⟩ := exists_of_bind_ok hl
  refine ⟨exists_scalar hlow, ?_, exists_scalar hfiles, exists_scalar hsize⟩
  cases hlevel : s.level with
  | text t => exact ⟨t, rfl⟩
  | _ =>
      rw [hlevel] at hname
      cases hname

theorem Sound.checkable (h : s.Sound) : s.Checkable where
  timeout := h.timeout.imp fun _ => And.left
  level := h.level.imp fun _ => And.left
  maxLogFiles := h.maxLogFiles.imp fun _ => And.left
  maxLogSize := h.maxLogSize.imp fun _ => And.left

section

variable {name : String} {t n m : Scalar} (ht : s.timeout.scalar? = some t)
  (hname : s.level = .text name) (hn : s.maxLogFiles.scalar? = some n)
  (hm : s.maxLogSize.scalar? = some m)
include ht hname hn hm

/-- Soundness, of the values that a validation looks into. -/
theorem sound_iff : s.Sound ↔ ((Scalar.real timeoutMin).le t ∧ t.le (.real timeoutMax)) ∧
    Text.upper name ∈ Log.Level.all.map Log.Level.name ∧
      (s.logToFile.isSet → s.logFilePath.isSet) ∧ (Scalar.int 0).lt n ∧ (Scalar.int 0).lt m := by
  constructor
  · intro h
    obtain ⟨t', ht', hbounds⟩ := h.timeout
    obtain ⟨name', hname', hlevel⟩ := h.level
    obtain ⟨n', hn', hfiles⟩ := h.maxLogFiles
    obtain ⟨m', hm', hsize⟩ := h.maxLogSize
    cases ht.symm.trans ht'
    cases hname.symm.trans hname'
    cases hn.symm.trans hn'
    cases hm.symm.trans hm'
    exact ⟨hbounds, hlevel, h.logFile, hfiles, hsize⟩
  · rintro ⟨hbounds, hlevel, hfile, hfiles, hsize⟩
    exact ⟨⟨t, ht, hbounds⟩, ⟨name, hname, hlevel⟩, hfile, ⟨n, hn, hfiles⟩, ⟨m, hm, hsize⟩⟩

/-- Of values that are no NaN, none is complained of just if they are sound. -/
theorem validate_eq_nil_iff (h : s.Ordered) : s.validate = .ok [] ↔ s.Sound := by
  obtain ⟨qs, hq, hquery⟩ := queryComplaints_eq ht
  obtain ⟨ls, hl, hlogging⟩ := loggingComplaints_eq hname hn hm
  obtain ⟨cs, hcs, hnil⟩ := validate_eq hq hl
  have real {x : Double} (hx : x ≠ .nan) : (Scalar.real x).IsOrdered := fun he =>
    hx (Scalar.real.inj he)
  have hmin : (Scalar.real timeoutMin).IsOrdered := real (by decide +kernel)
  have hmax : (Scalar.real timeoutMax).IsOrdered := real (by decide +kernel)
  have positive {a : Scalar} (ha : a.IsOrdered) : a.le (.int 0) = false ↔ (Scalar.int 0).lt a := by
    have hzero : (Scalar.int 0).IsOrdered := nofun
    rw [hzero.lt_eq ha, Bool.not_eq_true']
  rw [(h.timeout t ht).lt_eq hmin, hmax.lt_eq (h.timeout t ht), Bool.not_eq_false',
    Bool.not_eq_false'] at hquery
  rw [positive (h.maxLogFiles n hn), positive (h.maxLogSize m hm), isSome_levelOf?] at hlogging
  rw [hcs, Except.ok.injEq, hnil, hquery, hlogging, sound_iff ht hname hn hm]

end

/-- Settings whose numbers are no NaN are validated without a complaint just if they are sound. -/
theorem Ordered.validate_iff (h : s.Ordered) : s.validate = .ok [] ↔ s.Sound := by
  have checked (hc : s.Checkable) : s.validate = .ok [] ↔ s.Sound := by
    obtain ⟨⟨t, ht⟩, ⟨name, hname⟩, ⟨n, hn⟩, ⟨m, hm⟩⟩ := hc
    exact validate_eq_nil_iff ht hname hn hm h
  constructor
  · intro hv
    exact (checked (checkable_of_validate hv)).mp hv
  · intro hs
    exact (checked hs.checkable).mpr hs

theorem Sound.ordered (h : s.Sound) : s.Ordered := by
  obtain ⟨t', ht', -, ht⟩ := h.timeout
  obtain ⟨n', hn', hn⟩ := h.maxLogFiles
  obtain ⟨m', hm', hm⟩ := h.maxLogSize
  refine ⟨fun t he hnan => ?_, fun n he hnan => ?_, fun m he hnan => ?_⟩
  · rw [Option.some.inj (ht'.symm.trans he), hnan, Scalar.nan_le] at ht
    cases ht
  · rw [Option.some.inj (hn'.symm.trans he), hnan, Scalar.lt_nan] at hn
    cases hn
  · rw [Option.some.inj (hm'.symm.trans he), hnan, Scalar.lt_nan] at hm
    cases hm

/-- Settings are sound just if their numbers are no NaN and a validation has no complaint. -/
theorem sound_iff_validate : s.Sound ↔ s.Ordered ∧ s.validate = .ok [] := by
  constructor
  · intro h
    exact ⟨h.ordered, h.ordered.validate_iff.mpr h⟩
  · rintro ⟨ho, hv⟩
    exact ho.validate_iff.mp hv

/-- Validation does what it is to do just if it can be made and passes over no NaN. -/
theorem validates_iff : s.Validates ↔ s.Checkable ∧ (s.validate = .ok [] → s.Ordered) := by
  constructor
  · rintro ⟨⟨cs, hcs⟩, hsound⟩
    exact ⟨checkable_of_validate hcs, fun hv => (hsound hv).ordered⟩
  · rintro ⟨hc, ho⟩
    exact ⟨hc.returns, fun hv => sound_iff_validate.mpr ⟨ho hv, hv⟩⟩

/-! ## What spoils a validation -/

/-- Whether the value of a key lets a validation do what it is to do. -/
def Key.Allows : Key → Value → Prop
  | .timeout, v => ∃ x, v = .float x ∧ x ≠ .nan
  | .level, v => ∃ name, v = .text name
  | .maxLogFiles, v | .maxLogSize, v => ∃ n, v.wholeNumber? = some n
  | .strictActions, _ | .logStreams, _ | .logToFile, _ | .logFilePath, _ => True

/-- Whether an offered value may leave a key with one that does not. -/
def Key.SpoiledBy : Key → Value → Prop
  | .timeout, v => v = .null ∨ v.toDouble.toOption = some .nan
  | .level, v | .maxLogFiles, v | .maxLogSize, v => v = .null
  | .strictActions, _ | .logStreams, _ | .logToFile, _ | .logFilePath, _ => False

instance (k : Key) (v : Value) : Decidable (k.SpoiledBy v) :=
  match k with
  | .timeout => inferInstanceAs (Decidable (_ ∨ _))
  | .level | .maxLogFiles | .maxLogSize => inferInstanceAs (Decidable (v = .null))
  | .strictActions | .logStreams | .logToFile | .logFilePath => isFalse id

/-- Whether an offer is for another place than a key, or does not spoil the key. -/
def Harmless : Place × Value → Prop
  | (.key k, v) => ¬ k.SpoiledBy v
  | (.version, _) | (.firstRun, _) => True

instance (o : Place × Value) : Decidable (Harmless o) :=
  match o with
  | (.key k, v) => inferInstanceAs (Decidable (¬ k.SpoiledBy v))
  | (.version, _) => isTrue trivial
  | (.firstRun, _) => isTrue trivial

theorem allows_default (k : Key) : k.Allows (get {} k) := by
  cases k with
  | timeout => exact ⟨_, rfl, by decide +kernel⟩
  | level => exact ⟨_, rfl⟩
  | maxLogFiles => exact ⟨_, rfl⟩
  | maxLogSize => exact ⟨_, rfl⟩
  | _ => trivial

theorem convert_float {x : Double} (hv : v ≠ .null) :
    convert (.float x) v = v.toDouble.map .float := by
  cases v <;> first | rfl | exact absurd rfl hv

theorem convert_text {t : String} (hv : v ≠ .null) : convert (.text t) v = .ok (.text v.toText) := by
  cases v <;> first | rfl | exact absurd rfl hv

theorem exists_wholeNumber :
    (∃ n, v.wholeNumber? = some n) ↔ v.typeName = "int" ∨ v.typeName = "bool" := by
  cases v <;> simp [Value.wholeNumber?, Value.typeName]

/-- What is offered to an integer or a truth value leaves one of them, unless it is null. -/
theorem convert_wholeNumber (hu : ∃ n, u.wholeNumber? = some n) (hv : v ≠ .null)
    (h : convert u v = .ok w) : ∃ n, w.wholeNumber? = some n := by
  have htype := exists_wholeNumber.mp hu
  rw [exists_wholeNumber]
  rcases convert_cases h with ⟨hkept, rfl⟩ | ⟨-, hw⟩
  · rcases hkept with rfl | hnull | heq | ⟨-, hbool⟩
    · obtain ⟨n, hn⟩ := hu
      cases hn
    · exact absurd hnull hv
    · exact heq ▸ htype
    · exact Or.inr hbool
  · exact hw ▸ htype

/-- What does not spoil a key is converted to a value that lets a validation do its work. -/
theorem Key.Allows.convert {k : Key} (hu : k.Allows u) (hv : ¬ k.SpoiledBy v)
    (h : Settings.convert u v = .ok w) : k.Allows w := by
  cases k with
  | timeout =>
      obtain ⟨x, rfl, -⟩ := hu
      obtain ⟨hnull, hnan⟩ := not_or.mp hv
      rw [convert_float hnull] at h
      cases hd : v.toDouble with
      | error f => rw [hd] at h; cases h
      | ok y =>
          rw [hd] at h
          cases h
          exact ⟨y, rfl, fun hy => hnan (by rw [hd, hy]; rfl)⟩
  | level =>
      obtain ⟨t, rfl⟩ := hu
      rw [convert_text hv] at h
      cases h
      exact ⟨_, rfl⟩
  | maxLogFiles => exact convert_wholeNumber hu hv h
  | maxLogSize => exact convert_wholeNumber hu hv h
  | _ => trivial

theorem take_allows {o : Place × Value} (ho : Harmless o) :
    (take o.1 o.2).Preserves fun s => ∀ k : Key, k.Allows (s.get k) := by
  obtain ⟨p, v⟩ := o
  intro s hs k
  refine take_preserves (fun hp _ _ hu hc => hu.convert ?_ hc) s (hs k)
  obtain rfl : p = .key k := hp
  exact ho

/-- A validation does its work on settings whose values let it. -/
theorem validates_of_allows (h : ∀ k : Key, k.Allows (s.get k)) : s.Validates := by
  obtain ⟨x, hx, hnan⟩ : ∃ x, s.timeout = .float x ∧ x ≠ .nan := h .timeout
  have hlevel : ∃ name, s.level = .text name := h .level
  obtain ⟨n, hn⟩ : ∃ n, s.maxLogFiles.wholeNumber? = some n := h .maxLogFiles
  obtain ⟨m, hm⟩ : ∃ m, s.maxLogSize.wholeNumber? = some m := h .maxLogSize
  have whole {v : Value} {n : Int} (hv : v.wholeNumber? = some n) : v.scalar? = some (.int n) := by
    cases v <;> cases hv <;> rfl
  have ht : s.timeout.scalar? = some (.real x) := by rw [hx]; rfl
  refine validates_iff.mpr ⟨⟨⟨_, ht⟩, hlevel, ⟨_, whole hn⟩, ⟨_, whole hm⟩⟩, fun _ => ?_⟩
  refine ⟨fun t he => ?_, fun t he => ?_, fun t he => ?_⟩
  · cases ht.symm.trans he
    exact fun he => hnan (Scalar.real.inj he)
  · cases (whole hn).symm.trans he
    exact nofun
  · cases (whole hm).symm.trans he
    exact nofun

end Settings

namespace Config

open Op
open Settings (Place)

/-! ## Histories -/

/-- After every history that names nothing inner a validation does what it is to do just if it can
be made and passes over no NaN, and it has no complaint about sound settings.  After such a history
of harmless offers it does what it is to do. -/
theorem validates_of_history (host : Host) (path : Value) (acts : List Act)
    (hproper : Proper acts (start host path)) :
    let s := ((runAll acts).run (start host path)).2.settings
    (s.Validates ↔ s.Checkable ∧ (s.validate = .ok [] → s.Ordered)) ∧
      (s.Sound → s.validate = .ok []) ∧
      (Offering Settings.Harmless acts (start host path) → s.Validates) := by
  refine ⟨Settings.validates_iff, fun hs => (Settings.sound_iff_validate.mp hs).2, fun h => ?_⟩
  have hallows := runAll_preserves (P := fun s => ∀ k : Settings.Key, k.Allows (s.get k))
    Settings.allows_default (fun _ => Settings.take_allows) (fun _ hs => hs) hproper h
    Settings.allows_default
  exact Settings.validates_of_allows hallows

/-- A text with a timeout out of bounds, a level in small letters and no log files. -/
def boundedText : String :=
  "\x7b\"query\": \x7b\"timeout\": 40\x7d, " ++
    "\"logging\": \x7b\"level\": \"debug\", \"max_log_files\": 0\x7d\x7d"

/-- The object of that text. -/
def boundedEntries : Entries :=
  [("query", .object [("timeout", .int 40)]),
    ("logging", .object [("level", .text "debug"), ("max_log_files", .int 0)])]

/-- A load of that text, a truth value for the number of log files, and null for their path. -/
def boundedActs : List Act :=
  [.load .null, .set (.text "logging") (.text "max_log_files") (.bool true),
    .set (.text "logging") (.text "log_file_path") .null]

theorem validates_after_load :
    let c := start (stored boundedText).host (stored boundedText).path
    Proper boundedActs c ∧ Offering Settings.Harmless boundedActs c ∧
      ((runAll boundedActs).run c).2.settings.Validates := by
  have hholds : Holds (Text.Utf8.encode boundedText) boundedEntries :=
    holds_encode (by decide) rfl
  have hgiven : given .null (start (stored boundedText).host (stored boundedText).path) =
      boundedEntries := given_eq (p := "/home/conf/file") rfl rfl ⟨_, rfl⟩ hholds
  have hoffers : Settings.offers boundedEntries = [(.key .timeout, .int 40),
      (.key .level, .text "debug"), (.key .maxLogFiles, .int 0)] := rfl
  have hoffering : Offering Settings.Harmless boundedActs
      (start (stored boundedText).host (stored boundedText).path) := by
    refine ⟨?_, ?_, ?_, trivial⟩
    · show ∀ o ∈ Settings.offers (given .null _), Settings.Harmless o
      rw [hgiven, hoffers]
      decide +kernel
    · exact forall_offers_set (k := .maxLogFiles) (by decide)
    · exact forall_offers_set (k := .logFilePath) (by decide)
  have hproper : Proper boundedActs
      (start (stored boundedText).host (stored boundedText).path) := by
    refine ⟨?_, rfl, rfl, trivial⟩
    show Settings.isProper (given .null _) = true
    rw [hgiven]
    rfl
  exact ⟨hproper, hoffering, (validates_of_history _ _ boundedActs hproper).2.2 hoffering⟩

/-- A configuration with the default settings, whose file was not there and has been created, after
a value is set for the timeout. -/
def afterTimeout (v : Value) : Config :=
  ((runAll [.load .null, .set (.text "query") (.text "timeout") v]).run
    (start { files.root := "/home" } .null)).2

theorem get_afterTimeout {v w : Value}
    (h : Settings.convert (.float Settings.timeoutDefault) v = .ok w) (k : Settings.Key) :
    (afterTimeout v).settings.get k = (Settings.set {} w .timeout).get k := by
  have hgiven : given .null (start { files.root := "/home" } .null) = [] := by decide +kernel
  have hload := get_load hgiven
  have hrun := run_set .timeout v ((load .null).run (start { files.root := "/home" } .null)).2
  rw [hload .timeout, show (start { files.root := "/home" } .null).settings.get .timeout =
    .float Settings.timeoutDefault from rfl, h] at hrun
  simp only [afterTimeout, run_runAll_cons, run_runAll_nil, Act.run, state_bind_pure]
  rw [show (Value.text "query") = .text (Settings.Key.timeout).group.name from rfl,
    show (Value.text "timeout") = .text (Settings.Key.timeout).name from rfl, hrun]
  by_cases hk : k = .timeout
  · subst hk
    rw [Settings.get_set, Settings.get_set]
  · rw [Settings.get_set_of_ne _ _ hk, Settings.get_set_of_ne _ _ hk]
    exact hload k

/-- After null is set for the timeout a validation stops.  After a NaN is set for it a validation
has no complaint. -/
theorem not_validates_null_nan :
    ¬ (afterTimeout .null).settings.Validates ∧
      (afterTimeout (.float .nan)).settings.validate = .ok [] ∧
      ¬ (afterTimeout (.float .nan)).settings.Validates := by
  have hnull : (afterTimeout .null).settings.timeout = .null := get_afterTimeout rfl .timeout
  have hnan := get_afterTimeout (v := .float .nan) (w := .float .nan) rfl
  generalize (afterTimeout (.float .nan)).settings = s at hnan ⊢
  have ht : s.timeout.scalar? = some (.real .nan) := congrArg Value.scalar? (hnan .timeout)
  have hlevel : s.level = .text "INFO" := hnan .level
  have hn : s.maxLogFiles.scalar? = some (.int 5) := congrArg Value.scalar? (hnan .maxLogFiles)
  have hm : s.maxLogSize.scalar? = some (.int 10) := congrArg Value.scalar? (hnan .maxLogSize)
  have hfile : s.logToFile = .bool false := hnan .logToFile
  obtain ⟨qs, hq, hquery⟩ := Settings.queryComplaints_eq ht
  obtain ⟨ls, hl, hlogging⟩ := Settings.loggingComplaints_eq hlevel hn hm
  obtain ⟨cs, hcs, hnil⟩ := Settings.validate_eq hq hl
  have hqs : qs = [] := hquery.mpr ⟨Scalar.nan_lt _, Scalar.lt_nan _⟩
  have hls : ls = [] := hlogging.mpr ⟨by decide, by rw [hfile]; nofun, rfl, rfl⟩
  have hvalidate : s.validate = .ok [] := by rw [hcs, hnil.mpr ⟨hqs, hls⟩]
  refine ⟨fun h => ?_, hvalidate, fun h => ?_⟩
  · obtain ⟨t, ht⟩ := (Settings.validates_iff.mp h).1.timeout
    rw [hnull] at ht
    cases ht
  · exact ((Settings.validates_iff.mp h).2 hvalidate).timeout _ ht rfl

end Config

end Cockpit
