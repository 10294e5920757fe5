import Cockpit.Proofs.Settings.ReadBack

/-!
# Taking an object over again

What becomes of a setting when an object is taken over depends on its current value, and the
first time may have left a value of another type there.  A conversion sees no more than the type
of the current value.  It either takes the new value as it is or keeps that type, so nothing
changes the second time (`Settings.accept_accept`).

The order of the keys does not matter, since an object offers one value at most for each place,
and keys that name no setting offer nothing.  `Settings.Rearranged` says that one object comes of
another in this way, and `Settings.Rearranged.agrees` that both offer the same.
`Config.update_again_rearranged` puts the two together.

All this is so for objects without inner names.  The inner name of all values of a section gives
values to its keys, and what is left in the end depends on which of them comes last
(`Config.not_rearranged_whole`).
-/

namespace Cockpit

namespace Entries

variable {es es' : Entries} {key : String} {v : Value}

@[simp] theorem get?_cons_self (key : String) (v : Value) (es : Entries) :
    get? ((key, v) :: es) key = some v := List.lookup_cons_self

theorem get?_cons_of_ne {e : String × Value} (es : Entries) (h : key ≠ e.1) :
    get? (e :: es) key = es.get? key := by
  rw [get?, List.lookup_cons, beq_eq_false_iff_ne.mpr h]
  rfl

theorem get?_eq_none (h : key ∉ es.map Prod.fst) : es.get? key = none := by
  induction es with
  | nil => rfl
  | cons e es ih =>
      rw [List.map_cons, List.mem_cons, not_or] at h
      rw [get?_cons_of_ne es h.1, ih h.2]

/-- Where no key is there twice, the order does not matter for what is under a key. -/
theorem get?_perm (hp : es.Perm es') (hk : (es.map Prod.fst).Nodup) :
    es.get? key = es'.get? key := by
  have hk' : (es'.map Prod.fst).Nodup := (hp.map Prod.fst).nodup_iff.mp hk
  refine Option.ext fun v => ?_
  rw [get?_eq_some_iff hk, get?_eq_some_iff hk', hp.mem_iff]

end Entries

theorem Value.Keyed.perm {es es' : Entries} (hp : es.Perm es') (h : (Value.object es').Keyed) :
    (Value.object es).Keyed := by
  cases h with
  | object hk hv =>
      exact .object ((hp.map Prod.fst).nodup_iff.mpr hk) fun e he => hv e (hp.mem_iff.mp he)

theorem Value.keyed_nil : (Value.object []).Keyed := .object List.nodup_nil nofun

theorem Value.keyed_cons {e : String × Value} {es : Entries} :
    (Value.object (e :: es)).Keyed ↔
      e.1 ∉ es.map Prod.fst ∧ e.2.Keyed ∧ (Value.object es).Keyed := by
  constructor
  · rintro (_ | _ | _ | _ | _ | _ | ⟨hk, hv⟩)
    obtain ⟨hkey, hk⟩ := List.nodup_cons.mp hk
    exact ⟨hkey, hv e List.mem_cons_self,
      .object hk fun e' he => hv e' (List.mem_cons_of_mem e he)⟩
  · rintro ⟨hkey, hvalue, _ | _ | _ | _ | _ | _ | ⟨hk, hv⟩⟩
    refine .object (List.nodup_cons.mpr ⟨hkey, hk⟩) fun e' he => ?_
    rcases List.mem_cons.mp he with rfl | he
    · exact hvalue
    · exact hv e' he

namespace Settings

variable {s : Settings} {u v w : Value} {p : Place} {l : Option Section} {c : Section}
  {e : String × Value} {es es' fs : Entries}

/-! ## The type of the current value -/

theorem convert_congr (h : u.typeName = w.typeName) (v : Value) : convert u v = convert w v := by
  cases u <;> cases w <;> try (simp [Value.typeName] at h; done)
  all_goals cases v <;> rfl

theorem exceeds_congr (h : u.typeName = w.typeName) (v : Value) : exceeds u v = exceeds w v := by
  cases u <;> cases w <;> try (simp [Value.typeName] at h; done)
  all_goals cases v <;> try rfl
  case int.int.float x => cases x <;> rfl

/-- No value is out of its own range. -/
theorem exceeds_self (v : Value) : exceeds v v = false := by cases v <;> rfl

/-- What comes of a value is the value itself or has the type of the current one. -/
theorem accept_cases (u v : Value) :
    accept u v = v ∨ (accept u v).typeName = u.typeName := by
  rw [accept]
  cases hc : convert u v with
  | error f => exact Or.inr rfl
  | ok w =>
      rcases convert_cases hc with ⟨-, rfl⟩ | ⟨-, htype⟩
      · exact Or.inl rfl
      · exact Or.inr htype

/-- A value that is offered for the second time changes nothing. -/
theorem accept_accept (u v : Value) : accept (accept u v) v = accept u v := by
  cases hc : convert u v with
  | error f =>
      have hkept : accept u v = u := by rw [accept, hc]
      rw [hkept, hkept]
  | ok w =>
      have htaken : accept u v = w := by rw [accept, hc]
      rw [htaken]
      rcases convert_cases hc with ⟨-, rfl⟩ | ⟨-, htype⟩
      · rw [accept, convert_of_typeName rfl]
      · rw [accept, convert_congr htype, hc]

theorem exceeds_accept (h : exceeds u v = false) : exceeds (accept u v) v = false := by
  rcases accept_cases u v with hv | htype
  · rw [hv, exceeds_self]
  · rw [exceeds_congr htype, h]

/-! ## Objects that offer the same -/

/-- Whether an entry of an object, or of a section in it, gives no setting a value. -/
def Idle : Option Section → String × Value → Prop
  | none, e => ∀ p : Place, p.entry = e.1 → p.within? e.2 = none
  | some c, e => ∀ k : Key, k.group = c → k.name ≠ e.1

/-- Whether entries of an object, or of a section in it, come of others by putting them in another
order, adding ones that give no setting a value, and doing so within sections. -/
inductive Rearranged : Option Section → Entries → Entries → Prop where
  | reordered {l : Option Section} {es es' : Entries} (h : es.Perm es') : Rearranged l es es'
  | added {l : Option Section} {e : String × Value} {es : Entries} (h : Idle l e) :
    Rearranged l es (e :: es)
  | within {c : Section} {fs fs' es : Entries} (h : Rearranged (some c) fs fs') :
    Rearranged none ((c.name, .object fs) :: es) ((c.name, .object fs') :: es)
  | trans {l : Option Section} {es es' es'' : Entries} (h : Rearranged l es es')
    (h' : Rearranged l es' es'') : Rearranged l es es''

/-- Whether entries of an object, or of a section in it, give the same values for settings. -/
def Agrees : Option Section → Entries → Entries → Prop
  | none, es, es' => ∀ p, offered? es p = offered? es' p
  | some c, es, es' => ∀ k : Key, k.group = c → es.get? k.name = es'.get? k.name

/-- Whatever is under a name that no setting needs gives no setting a value. -/
theorem idle_of_ne (h : ∀ p : Place, p.entry ≠ e.1) : Idle none e := fun p hp => absurd hp (h p)

theorem offered?_cons_self (h : p.entry = e.1) : offered? (e :: es) p = p.within? e.2 := by
  rw [offered?, h, Entries.get?_cons_self, Option.bind_some]

theorem offered?_cons_of_ne (h : p.entry ≠ e.1) : offered? (e :: es) p = offered? es p := by
  rw [offered?, Entries.get?_cons_of_ne es h, offered?]

theorem agrees_perm (hp : es.Perm es') (hk : (es.map Prod.fst).Nodup) : Agrees l es es' := by
  cases l with
  | none =>
      intro p
      rw [offered?, Entries.get?_perm hp hk, offered?]
  | some c => exact fun k _ => Entries.get?_perm hp hk

theorem agrees_added (h : Idle l e) (hkey : e.1 ∉ es.map Prod.fst) : Agrees l es (e :: es) := by
  cases l with
  | none =>
      intro p
      by_cases hp : p.entry = e.1
      · rw [offered?_cons_self hp, h p hp, offered?, hp, Entries.get?_eq_none hkey,
          Option.bind_none]
      · rw [offered?_cons_of_ne hp]
  | some c => exact fun k hk => (Entries.get?_cons_of_ne es (h k hk)).symm

theorem agrees_within {fs' : Entries} (h : Agrees (some c) fs fs') :
    Agrees none ((c.name, .object fs) :: es) ((c.name, .object fs') :: es) := by
  intro p
  by_cases hp : p.entry = c.name
  · rw [offered?_cons_self hp, offered?_cons_self hp]
    obtain ⟨k, rfl, hk⟩ := entry_eq_name.mp hp
    exact h k hk
  · rw [offered?_cons_of_ne hp, offered?_cons_of_ne hp]

theorem Agrees.trans {es'' : Entries} (h : Agrees l es es') (h' : Agrees l es' es'') :
    Agrees l es es'' := by
  cases l with
  | none => exact fun p => (h p).trans (h' p)
  | some c => exact fun k hk => (h k hk).trans (h' k hk)

/-- What comes of an object in this way offers the same. -/
theorem Rearranged.agrees (h : Rearranged l es es') (he : (Value.object es').Keyed) :
    (Value.object es).Keyed ∧ Agrees l es es' := by
  induction h with
  | reordered hp =>
      have hkeyed := Value.Keyed.perm hp he
      cases hkeyed with
      | object hk hv => exact ⟨.object hk hv, agrees_perm hp hk⟩
  | added hidle =>
      obtain ⟨hkey, -, hes⟩ := Value.keyed_cons.mp he
      exact ⟨hes, agrees_added hidle hkey⟩
  | within _ ih =>
      obtain ⟨hkey, hfs', hes⟩ := Value.keyed_cons.mp he
      obtain ⟨hfs, hagrees⟩ := ih hfs'
      exact ⟨Value.keyed_cons.mpr ⟨hkey, hfs, hes⟩, agrees_within hagrees⟩
  | trans _ _ ih ih' =>
      obtain ⟨hmid, hlater⟩ := ih' he
      obtain ⟨hes, hfirst⟩ := ih hmid
      exact ⟨hes, hfirst.trans hlater⟩

/-- Whether entries of an object, or of a section in it, have no inner names. -/
def isProperIn : Option Section → Entries → Bool
  | none => isProper
  | some _ => hasPlainNames

theorem isProperIn_of_subset (h : es ⊆ es') (hp : isProperIn l es' = true) :
    isProperIn l es = true := by
  have plain (hp : hasPlainNames es' = true) : hasPlainNames es = true :=
    hasPlainNames_iff.mpr fun e he => hasPlainNames_iff.mp hp e (h he)
  cases l with
  | none =>
      obtain ⟨hnames, hsections⟩ := isProper_iff.mp hp
      exact isProper_iff.mpr ⟨plain hnames, fun c fs hmem => hsections c fs (h hmem)⟩
  | some c => exact plain hp

theorem isProper_section {fs' : Entries} (h : hasPlainNames fs = true)
    (hp : isProper ((c.name, .object fs') :: es) = true) :
    isProper ((c.name, .object fs) :: es) = true := by
  obtain ⟨hnames, hsections⟩ := isProper_iff.mp hp
  refine isProper_iff.mpr ⟨hnames, fun d gs hmem => ?_⟩
  rcases List.mem_cons.mp hmem with heq | hmem
  · obtain rfl : gs = fs := Value.object.inj (Prod.mk.inj heq).2
    exact h
  · exact hsections d gs (List.mem_cons_of_mem _ hmem)

/-- What comes of an object in this way has the inner names of the object. -/
theorem Rearranged.isProperIn (h : Rearranged l es es') (hp : isProperIn l es' = true) :
    isProperIn l es = true := by
  induction h with
  | reordered hperm => exact isProperIn_of_subset hperm.subset hp
  | added _ => exact isProperIn_of_subset (List.subset_cons_self _ _) hp
  | within _ ih =>
      exact isProper_section (ih ((isProper_iff.mp hp).2 _ _ List.mem_cons_self)) hp
  | trans _ _ ih ih' => exact ih (ih' hp)

end Settings

namespace Config

open Settings (Rearranged)

variable {c : Config} {s s' t : Settings} {es es' : Entries}

/-! ## Taking an object over -/

/-- Whether nothing but a refusal comes in the way of converting what an object offers. -/
def Convertible (s : Settings) (es : Entries) : Prop :=
  ∀ p v f, Settings.offered? es p = some v → Settings.convert (s.value p) v = .error f →
    f.isConversion = true

/-- What is not a refusal is a number out of range. -/
theorem convertible_iff : Convertible s es ↔ ¬ Exceeds s es := by
  constructor
  · rintro h ⟨p, v, ho, hx⟩
    cases h p v _ ho (Settings.convert_of_exceeds hx)
  · intro h p v f ho hf
    exact Settings.convert_refuses (Bool.of_not_eq_true fun hx => h ⟨p, v, ho, hx⟩) f hf

/-- What settings become is determined. -/
theorem TakenOver.unique (h : TakenOver es s s') (h' : TakenOver es s t) : t = s' := by
  refine Settings.ext_value fun p => ?_
  by_cases hp : p = .firstRun
  · subst hp
    exact h'.loaded.trans h.loaded.symm
  · rw [h.value p hp, h'.value p hp]

/-- An object changes nothing in what it has been taken over into. -/
theorem TakenOver.again (h : TakenOver es s s') : TakenOver es s' s' := by
  refine ⟨h.loaded, fun p hp => ?_⟩
  have hvalue := h.value p hp
  cases ho : Settings.offered? es p with
  | none => rfl
  | some v =>
      rw [ho] at hvalue
      dsimp only at hvalue ⊢
      rw [hvalue, Settings.accept_accept]

/-- What is in range is in range of what has been taken over. -/
theorem TakenOver.not_exceeds (h : TakenOver es s s') (hr : ¬ Exceeds s es) :
    ¬ Exceeds s' es := by
  rintro ⟨p, v, ho, hx⟩
  by_cases hp : p = .firstRun
  · subst hp
    rw [show s'.value .firstRun = .bool false from h.loaded] at hx
    cases hx
  · have hin : Settings.exceeds (s.value p) v = false :=
      Bool.of_not_eq_true fun hx => hr ⟨p, v, ho, hx⟩
    rw [h.value p hp, ho] at hx
    cases (Settings.exceeds_accept hin).symm.trans hx

/-- An object that offers the same is taken over in the same way. -/
theorem TakenOver.congr (h : TakenOver es s s') (ha : Settings.Agrees none es es') :
    TakenOver es' s s' := by
  refine ⟨h.loaded, fun p hp => ?_⟩
  rw [h.value p hp, ha p]

theorem exceeds_iff_of_agrees (ha : Settings.Agrees none es es') :
    Exceeds s es' ↔ Exceeds s es := by
  rw [Exceeds, Exceeds]
  exact exists_congr fun p => by rw [ha p]

/-- Taking an object over twice leaves the settings that taking it over once leaves, and so does
taking over another that comes of it by reordering keys and adding ones that name no setting, if
there are no inner names. -/
theorem update_again_rearranged (he : (Value.object es').Keyed)
    (hc : Convertible c.settings es) (h : Rearranged none es es')
    (hproper : Settings.isProper es' = true) :
    let once := (update (.object es)).run c
    let twice := (update (.object es)).run once.2
    let other := (update (.object es')).run c
    once.1 = .ok () ∧ twice.1 = .ok () ∧ other.1 = .ok () ∧
      twice.2.settings = once.2.settings ∧ other.2.settings = once.2.settings := by
  obtain ⟨hes, hagrees⟩ := h.agrees he
  have hplain : Settings.isProper es = true := h.isProperIn hproper
  have hrange := convertible_iff.mp hc
  obtain ⟨honce, htaken⟩ := update_takenOver hes hplain hrange
  obtain ⟨htwice, hagain⟩ := update_takenOver hes hplain (htaken.not_exceeds hrange)
  obtain ⟨hother, hothers⟩ := update_takenOver he hproper fun hx =>
    hrange ((exceeds_iff_of_agrees hagrees).mp hx)
  exact ⟨honce, htwice, hother, htaken.again.unique hagain, (htaken.congr hagrees).unique hothers⟩

/-- A configuration with null for the timeout, and with a truth value for the number of log
files. -/
def loosened : Config :=
  ((runAll [.set (.text "query") (.text "timeout") .null,
    .set (.text "logging") (.text "max_log_files") (.bool true)]).run
      (start { files.root := "/home" } .null)).2

/-- A text for that timeout, a number for the truth value, a list for the level, and a size that
is refused. -/
def looseEntries : Entries :=
  [("query", .object [("timeout", .text "soon")]),
    ("logging", .object [("level", .list [.null]), ("max_log_files", .int 7),
      ("max_log_size_mb", .text "many")]), ("first_run", .int 0)]

/-- The same in another order, with names that are no settings. -/
def looseEntries' : Entries :=
  [("colour", .text "red"),
    ("logging", .object [("tone", .null), ("max_log_size_mb", .text "many"),
      ("level", .list [.null]), ("max_log_files", .int 7)]),
    ("query", .object [("timeout", .text "soon")]), ("first_run", .int 0)]

theorem rearranged_loose : Rearranged none looseEntries looseEntries' := by
  refine .trans (.reordered (.swap _ _ _)) (.trans (.within (c := .logging) ?_) (.added ?_))
  · refine .trans (.reordered (@List.perm_append_comm _ [_, _] [_])) (.added ?_)
    rintro (_ | _ | _ | _ | _ | _ | _ | _) <;> decide
  · exact Settings.idle_of_ne fun p => by
      rcases p with (_ | _ | _ | _ | _ | _ | _ | _) | _ | _ <;> decide

theorem update_again_rearranged_loose :
    let once := (update (.object looseEntries)).run loosened
    loosened.settings.timeout = .null ∧ loosened.settings.maxLogFiles = .bool true ∧
      (Value.object looseEntries').Keyed ∧ Convertible loosened.settings looseEntries ∧
      Rearranged none looseEntries looseEntries' ∧ Settings.isProper looseEntries' = true ∧
      once.2.settings.timeout = .text "soon" ∧
      ((update (.object looseEntries)).run once.2).2.settings = once.2.settings ∧
      ((update (.object looseEntries')).run loosened).2.settings = once.2.settings := by
  have hrange : Convertible loosened.settings looseEntries := by
    refine convertible_iff.mpr ?_
    rintro ⟨p, v, ho, hx⟩
    cases p with
    | key k => cases k <;> cases ho <;> cases hx
    | version => cases ho
    | firstRun => cases ho; cases hx
  have hkeyed : (Value.object looseEntries').Keyed := by
    simp [looseEntries', Value.keyed_cons, Value.keyed_nil, Value.Keyed.null, Value.Keyed.int,
      Value.Keyed.text, Value.Keyed.list]
  obtain ⟨-, -, -, htwice, hother⟩ :=
    update_again_rearranged hkeyed hrange rearranged_loose (by decide)
  exact ⟨rfl, rfl, hkeyed, hrange, rearranged_loose, by decide, rfl, htwice, hother⟩

/-- A number of log files among all values of its section, and another one under its key. -/
def wholeEntries : Entries :=
  [("logging", .object [("__dict__", .object [("max_log_files", .int 6)]),
    ("max_log_files", .int 7)])]

/-- The same in the other order. -/
def wholeEntries' : Entries :=
  [("logging", .object [("max_log_files", .int 7),
    ("__dict__", .object [("max_log_files", .int 6)])])]

/-- Where all values of a section are given as well as one of them, the later one stays. -/
theorem not_rearranged_whole :
    let c := start { files.root := "/home" } .null
    (Value.object wholeEntries').Keyed ∧ Convertible c.settings wholeEntries ∧
      Rearranged none wholeEntries wholeEntries' ∧
      ((update (.object wholeEntries)).run c).2.settings.maxLogFiles = .int 7 ∧
      ((update (.object wholeEntries')).run c).2.settings.maxLogFiles = .int 6 := by
  refine ⟨?_, convertible_iff.mpr ?_, .within (c := .logging) (.reordered (.swap _ _ _)), rfl, rfl⟩
  · simp [wholeEntries', Value.keyed_cons, Value.keyed_nil, Value.Keyed.int]
  · rintro ⟨p, v, ho, hx⟩
    cases p with
    | key k => cases k <;> cases ho; cases hx
    | version => cases ho
    | firstRun => cases ho

end Config

end Cockpit
