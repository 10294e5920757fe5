import Cockpit.Proofs.Json.Keys
import Cockpit.Proofs.Op.Outcome
import Cockpit.Proofs.Wire.Refused
import Cockpit.Settings.Basic

/-!
# Values that are offered to settings

A `Settings.Place` is what an entry of a file may give a value for: a key, the version, or the
mark of the first run.  `Settings.take` offers a value to one place.  The place then holds the
value, converted, or else what it held before.

`Settings.takeAll` offers values one after another.  If each place is offered one value at most
then each holds in the end what its own offer makes of it (`Settings.run_takeAll`), unless some
number overflows in the conversion.  At the first such number the rest is not offered
(`Settings.run_takeAll_overflow`).

The entries of an object offer one value at most to each place, which can be looked up
(`Settings.mem_offers`).
-/

namespace Cockpit.Settings

open Op

/-! ## Names -/

/-- The section of a key. -/
def Key.group : Key → Section
  | .timeout => .query
  | .strictActions | .logStreams => .builder
  | .level | .logToFile | .logFilePath | .maxLogFiles | .maxLogSize => .logging

theorem Section.ofName?_eq_some {c : Section} {s : String} : ofName? s = some c ↔ c.name = s := by
  constructor
  · intro h
    have hname := List.find?_some h
    exact beq_iff_eq.mp hname
  · rintro rfl
    cases c <;> decide

theorem Section.key?_eq_some {c : Section} {s : String} {k : Key} :
    c.key? s = some k ↔ k.group = c ∧ k.name = s := by
  constructor
  · intro h
    have hk := List.mem_of_find?_eq_some h
    have hname := List.find?_some h
    refine ⟨?_, beq_iff_eq.mp hname⟩
    revert hk
    cases c <;> cases k <;> decide
  · rintro ⟨rfl, rfl⟩
    cases k <;> decide

theorem ne_valuesName {name : String} (h : isInner name = false) : name ≠ valuesName := by
  rintro rfl
  exact absurd h (by decide)

theorem ne_holderName {name : String} (h : isInner name = false) : name ≠ holderName := by
  rintro rfl
  exact absurd h (by decide)

/-- Refilling a section leaves each of its keys with the value that the entries have, as it is, or
at its default, and the other keys alone. -/
theorem get_refill (s : Settings) (c : Section) (es : Entries) (k : Key) :
    (s.refill c es).get k = if k.group = c then es.getD k.name (get {} k) else s.get k := by
  cases c <;> cases k <;> rfl

/-- Whether no entry has an inner name. -/
def hasPlainNames (es : Entries) : Bool := es.all fun e => !isInner e.1

/-- Whether no entry of an object has an inner name, and none within its sections. -/
def isProper (es : Entries) : Bool :=
  hasPlainNames es && es.all fun e => match Section.ofName? e.1, e.2 with
    | some _, .object fs => hasPlainNames fs
    | _, _ => true

theorem hasPlainNames_iff {es : Entries} :
    hasPlainNames es = true ↔ ∀ e ∈ es, isInner e.1 = false := by
  simp [hasPlainNames]

/-- An object has no inner names just if it has none itself and none within its sections. -/
theorem isProper_iff {es : Entries} :
    isProper es = true ↔ hasPlainNames es = true ∧
      ∀ (c : Section) (fs : Entries), (c.name, .object fs) ∈ es → hasPlainNames fs = true := by
  rw [isProper, Bool.and_eq_true, List.all_eq_true]
  refine and_congr_right fun _ => ⟨fun h c fs hmem => ?_, fun h e he => ?_⟩
  · have hfs := h _ hmem
    rwa [show Section.ofName? c.name = some c from Section.ofName?_eq_some.mpr rfl] at hfs
  · obtain ⟨name, v⟩ := e
    dsimp only
    split
    · rename_i c fs hc
      obtain rfl := Section.ofName?_eq_some.mp hc
      exact h c fs he
    · rfl

/-! ## Places -/

/-- What an entry of a file may give a value for. -/
inductive Place where
  | key (k : Key)
  | version
  | firstRun
  deriving DecidableEq

/-- The value at a place. -/
def value (s : Settings) : Place → Value
  | .key k => s.get k
  | .version => s.version
  | .firstRun => s.firstRun

/-- The settings with another value at a place. -/
def put (s : Settings) (v : Value) : Place → Settings
  | .key k => s.set v k
  | .version => { s with version := v }
  | .firstRun => { s with firstRun := v }

variable {s s' t : Settings} {p q : Place} {u v w : Value} {f : Fault} {os : List (Place × Value)}

@[simp] theorem value_put (s : Settings) (v : Value) (p : Place) : (s.put v p).value p = v := by
  cases p with
  | key k => exact get_set s v k
  | version => rfl
  | firstRun => rfl

theorem value_put_of_ne (s : Settings) (v : Value) (h : q ≠ p) :
    (s.put v p).value q = s.value q := by
  cases p with
  | key k =>
      cases q with
      | key l => exact get_set_of_ne s v fun hl => h (congrArg Place.key hl)
      | version => exact version_set s v k
      | firstRun => exact firstRun_set s v k
  | version => cases q <;> first | rfl | exact absurd rfl h
  | firstRun => cases q <;> first | rfl | exact absurd rfl h

/-- Settings with the same value at every place are the same. -/
theorem ext_value (h : ∀ p, s.value p = t.value p) : s = t := by
  obtain ⟨s₁, s₂, s₃, s₄, s₅, s₆, s₇, s₈, s₉, s₁₀⟩ := s
  obtain ⟨t₁, t₂, t₃, t₄, t₅, t₆, t₇, t₈, t₉, t₁₀⟩ := t
  rw [mk.injEq]
  exact ⟨h (.key .timeout), h (.key .strictActions), h (.key .logStreams), h (.key .level),
    h (.key .logToFile), h (.key .logFilePath), h (.key .maxLogFiles), h (.key .maxLogSize),
    h .version, h .firstRun⟩

@[simp] theorem put_value (s : Settings) (p : Place) : s.put (s.value p) p = s := by
  refine ext_value fun q => ?_
  by_cases h : q = p
  · subst h
    exact value_put s _ q
  · exact value_put_of_ne s _ h

/-! ## Conversion -/

/-- Whether a value is a number out of the range of a current one: an infinity for an integer, or
an integer too large for a binary64 number. -/
def exceeds : (current value : Value) → Bool
  | .int _, .float (.inf _) => true
  | .float _, .int n => (Double.ofInt? n).isNone
  | _, _ => false

/-- A fault says that a value cannot be converted. -/
def Refuses (f : Fault) : Prop := f.isConversion = true

/-- An integer is asked for in vain of values of other kinds, of texts of another form, of NaN,
and of the infinities, which are out of range. -/
theorem toInt_refuses (h : ∀ b, v ≠ .float (.inf b)) : FailsBy Refuses v.toInt := by
  cases v with
  | float x =>
      cases x with
      | nan => exact failsBy_error rfl
      | inf b => exact absurd rfl (h b)
      | finite b n => exact failsBy_ok _
  | text s =>
      rw [Value.toInt]
      split
      · exact failsBy_ok _
      · exact failsBy_error rfl
      · exact failsBy_error rfl
  | bool b => exact failsBy_ok _
  | int n => exact failsBy_ok n
  | null => exact failsBy_error rfl
  | list xs => exact failsBy_error rfl
  | object es => exact failsBy_error rfl

/-- A value that counts as an integer is one, or a truth value. -/
theorem scalar?_eq_int {n : Int} (h : v.scalar? = some (.int n)) : v = .int n ∨ n = 0 ∨ n = 1 := by
  cases v with
  | int m => cases h; exact Or.inl rfl
  | bool b => cases b <;> cases h <;> simp
  | _ => cases h

/-- The truth values are in the range of binary64 numbers. -/
theorem ofInt?_ne_none {n : Int} (h : n = 0 ∨ n = 1) : Double.ofInt? n ≠ none := by
  rcases h with rfl | rfl <;> decide +kernel

/-- A binary64 number is asked for in vain of values of other kinds, of texts of another form,
and of integers that are out of range. -/
theorem toDouble_refuses (h : ∀ n, v = .int n → Double.ofInt? n ≠ none) :
    FailsBy Refuses v.toDouble := by
  unfold Value.toDouble
  split
  · split
    · exact failsBy_ok _
    · exact failsBy_error rfl
  · split
    · rename_i a ha
      unfold Scalar.toDouble
      split
      · rename_i n
        split
        · exact failsBy_ok _
        · rename_i hnone
          exact absurd hnone ((scalar?_eq_int ha).elim (h n) ofInt?_ne_none)
      · exact failsBy_ok _
    · exact failsBy_error rfl

theorem items_refuses (v : Value) : FailsBy Refuses v.items := by
  cases v with
  | list xs => exact failsBy_ok _
  | text s => exact failsBy_ok _
  | object es => exact failsBy_ok _
  | _ => exact failsBy_error rfl

theorem toEntries_refuses (v : Value) : FailsBy Refuses v.toEntries := by
  have entry (x : Value × Nat) : FailsBy Refuses (Value.toEntry x.2 x.1) := by
    rw [Value.toEntry]
    split
    · exact failsBy_ite (failsBy_ok _) (failsBy_error rfl)
    · exact failsBy_error rfl
    · exact failsBy_error rfl
  unfold Value.toEntries
  split
  · exact failsBy_ok _
  · exact (items_refuses v).bind fun xs => (failsBy_mapM entry _).bind fun _ => failsBy_ok _

/-- A conversion is refused as one, unless the value is out of range. -/
theorem convert_refuses (h : exceeds u v = false) : FailsBy Refuses (convert u v) := by
  unfold convert
  split
  · exact failsBy_ok _
  · exact failsBy_ok _
  · exact failsBy_ok _
  · exact failsBy_ok _
  · refine (toInt_refuses fun b hb => ?_).map _
    subst hb
    cases h
  · refine (toDouble_refuses fun n hn hnone => ?_).map _
    subst hn
    exact absurd h (by simp only [exceeds, hnone]; nofun)
  · exact failsBy_ok _
  · exact (items_refuses v).map _
  · exact (toEntries_refuses v).map _

theorem convert_of_exceeds (h : exceeds u v = true) : convert u v = .error .overflow := by
  unfold exceeds at h
  split at h
  · rfl
  · rename_i x n
    have hn : (Scalar.int n).toDouble = .error .overflow := by
      unfold Scalar.toDouble
      dsimp only
      rw [Option.isNone_iff_eq_none.mp h]
    show (Scalar.int n).toDouble.map Value.float = .error .overflow
    rw [hn]
    rfl
  · cases h

/-- What comes of a value that is offered in the place of a current one. -/
def accept (current value : Value) : Value :=
  match convert current value with
  | .ok w => w
  | .error _ => current

/-! ## Offers -/

/-- Offers a value to a place. -/
def take (p : Place) (v : Value) : Op Settings Unit := do
  match convert ((← .state).value p) v with
  | .ok w => .update (·.put w p)
  | .error f => if f.isConversion then pure () else .stop f

/-- Offers values one after another. -/
def takeAll (os : List (Place × Value)) : Op Settings Unit := os.forM fun o => take o.1 o.2

theorem run_take (h : exceeds (s.value p) v = false) :
    (take p v).run s = (.ok (), s.put (accept (s.value p) v) p) := by
  rw [take, run_state_bind, accept]
  cases hc : convert (s.value p) v with
  | ok w => rfl
  | error f =>
      have hf : f.isConversion = true := convert_refuses h f hc
      dsimp only
      rw [if_pos hf, put_value]
      rfl

theorem run_take_overflow (h : exceeds (s.value p) v = true) :
    (take p v).run s = (.error .overflow, s) := by
  rw [take, run_state_bind, convert_of_exceeds h]
  rfl

theorem takeAll_cons (p : Place) (v : Value) (os : List (Place × Value)) :
    takeAll ((p, v) :: os) = take p v >>= fun _ => takeAll os := rfl

theorem takeAll_singleton (p : Place) (v : Value) : takeAll [(p, v)] = take p v :=
  bind_pure_unit

theorem takeAll_append (os os' : List (Place × Value)) :
    takeAll (os ++ os') = takeAll os >>= fun _ => takeAll os' := List.forM_append

/-- Values in range, one at most for each place, are all offered.  Each place that is offered one
holds what comes of it, and the others hold what they held. -/
theorem run_takeAll (hn : (os.map Prod.fst).Nodup)
    (hr : ∀ o ∈ os, exceeds (s.value o.1) o.2 = false) :
    ∃ s', (takeAll os).run s = (.ok (), s') ∧
      (∀ o ∈ os, s'.value o.1 = accept (s.value o.1) o.2) ∧
      ∀ p, p ∉ os.map Prod.fst → s'.value p = s.value p := by
  induction os generalizing s with
  | nil => exact ⟨s, rfl, nofun, fun _ _ => rfl⟩
  | cons o os ih =>
      obtain ⟨p, v⟩ := o
      obtain ⟨hp, hn⟩ := List.nodup_cons.mp hn
      have hothers (o : Place × Value) (ho : o ∈ os) : o.1 ≠ p := fun he =>
        hp (List.mem_map.mpr ⟨o, ho, he⟩)
      have hkept {q : Place} (hq : q ≠ p) :
          (s.put (accept (s.value p) v) p).value q = s.value q := value_put_of_ne s _ hq
      obtain ⟨s', hrun, hin, hout⟩ := @ih (s.put (accept (s.value p) v) p) hn fun o ho => by
        rw [hkept (hothers o ho)]
        exact hr o (List.mem_cons_of_mem _ ho)
      refine ⟨s', ?_, fun o ho => ?_, fun q hq => ?_⟩
      · rw [takeAll_cons, run_bind_ok (run_take (hr _ List.mem_cons_self)), hrun]
      · rcases List.mem_cons.mp ho with rfl | ho
        · rw [hout p hp, value_put]
        · rw [hin o ho, hkept (hothers o ho)]
      · rw [List.map_cons, List.mem_cons, not_or] at hq
        rw [hout q hq.2, hkept hq.1]

/-- Among values for different places, the first that is out of range stops the rest from being
offered.  Those before it have been. -/
theorem run_takeAll_overflow (hn : (os.map Prod.fst).Nodup)
    (hr : ∃ o ∈ os, exceeds (s.value o.1) o.2 = true) :
    ∃ before o after, os = before ++ o :: after ∧ exceeds (s.value o.1) o.2 = true ∧
      (∀ o' ∈ before, exceeds (s.value o'.1) o'.2 = false) ∧
      (takeAll os).run s = (.error .overflow, ((takeAll before).run s).2) := by
  induction os generalizing s with
  | nil => exact absurd hr nofun
  | cons o os ih =>
      obtain ⟨p, v⟩ := o
      obtain ⟨hp, hn⟩ := List.nodup_cons.mp hn
      cases he : exceeds (s.value p) v with
      | true =>
          refine ⟨[], (p, v), os, rfl, he, nofun, ?_⟩
          rw [takeAll_cons, run_bind_error (run_take_overflow he)]
          rfl
      | false =>
          have hkept (o : Place × Value) (ho : o ∈ os) :
              (s.put (accept (s.value p) v) p).value o.1 = s.value o.1 :=
            value_put_of_ne s _ fun he => hp (List.mem_map.mpr ⟨o, ho, he⟩)
          obtain ⟨o, ho, hexceeds⟩ := hr
          have hmem : o ∈ os := (List.mem_cons.mp ho).resolve_left fun hmem => by
            subst hmem
            exact absurd (he.symm.trans hexceeds) nofun
          obtain ⟨before, o', after, rfl, ho', hbefore, hrun⟩ :=
            @ih (s.put (accept (s.value p) v) p) hn ⟨o, hmem, by rw [hkept o hmem]; exact hexceeds⟩
          have hkept' : ∀ o ∈ before ++ o' :: after, _ := hkept
          refine ⟨(p, v) :: before, o', after, rfl, ?_, fun o hob => ?_, ?_⟩
          · rw [← hkept o' (List.mem_append_right _ List.mem_cons_self)]
            exact ho'
          · rcases List.mem_cons.mp hob with rfl | hob
            · exact he
            · rw [← hkept o (List.mem_append_left _ hob)]
              exact hbefore o hob
          · rw [takeAll_cons, takeAll_cons, run_bind_ok (run_take he), run_bind_ok (run_take he),
              hrun]

/-! ## Entries -/

/-- What the entries of a section offer, in order. -/
def sectionOffers (c : Section) (es : Entries) : List (Place × Value) :=
  es.filterMap fun e => (c.key? e.1).map fun k => (.key k, e.2)

/-- What one entry of an object offers, in order. -/
def entryOffers (name : String) (v : Value) : List (Place × Value) :=
  match Section.ofName? name, v with
  | some c, .object es => sectionOffers c es
  | some _, _ => []
  | none, v =>
    if name = "version" then [(.version, v)]
    else if name = "first_run" then [(.firstRun, v)]
    else []

/-- What the entries of an object offer, in order. -/
def offers (es : Entries) : List (Place × Value) := es.flatMap fun e => entryOffers e.1 e.2

/-- The name of the entry that offers a value for a place. -/
def Place.entry : Place → String
  | .key k => k.group.name
  | .version => "version"
  | .firstRun => "first_run"

/-- What the value of that entry offers: under the name of the key if it is a section, or the
value itself. -/
def Place.within? : Place → Value → Option Value
  | .key k, .object es => Entries.get? es k.name
  | .key _, _ => none
  | .version, v => some v
  | .firstRun, v => some v

/-- The value that an object offers for a place. -/
def offered? (es : Entries) (p : Place) : Option Value := (es.get? p.entry).bind p.within?

variable {c : Section} {es : Entries} {name : String} {k : Key}

theorem mem_sectionOffers :
    (p, v) ∈ sectionOffers c es ↔ ∃ k, p = .key k ∧ k.group = c ∧ (k.name, v) ∈ es := by
  simp only [sectionOffers, List.mem_filterMap, Option.map_eq_some_iff, Section.key?_eq_some,
    Prod.mk.injEq]
  constructor
  · rintro ⟨e, he, k, ⟨hk, hname⟩, rfl, rfl⟩
    exact ⟨k, rfl, hk, hname ▸ he⟩
  · rintro ⟨k, rfl, hk, he⟩
    exact ⟨_, he, k, ⟨hk, rfl⟩, rfl, rfl⟩

@[simp] theorem ofName?_name (c : Section) : Section.ofName? c.name = some c :=
  Section.ofName?_eq_some.mpr rfl

/-- The places whose entry has the name of a section are its keys. -/
theorem entry_eq_name : p.entry = c.name ↔ ∃ k, p = .key k ∧ k.group = c := by
  cases p with
  | key k =>
      constructor
      · intro h
        have hk : some k.group = some c := by rw [← ofName?_name, ← ofName?_name c, ← h]; rfl
        exact ⟨k, rfl, Option.some.inj hk⟩
      · rintro ⟨l, hl, rfl⟩
        cases hl
        rfl
  | version => cases c <;> simp [Place.entry, Section.name]
  | firstRun => cases c <;> simp [Place.entry, Section.name]

/-- An entry offers values for places of its own name only, and all the values that it has for
them. -/
theorem mem_entryOffers (hu : u.Keyed) :
    (p, v) ∈ entryOffers name u ↔ p.entry = name ∧ p.within? u = some v := by
  cases hc : Section.ofName? name with
  | some c =>
      obtain rfl := Section.ofName?_eq_some.mp hc
      rw [entry_eq_name]
      cases hu with
      | @object es hk _ =>
          rw [show entryOffers c.name (.object es) = sectionOffers c es by simp [entryOffers],
            mem_sectionOffers]
          constructor
          · rintro ⟨k, rfl, hg, he⟩
            exact ⟨⟨k, rfl, hg⟩, (Entries.get?_eq_some_iff hk).mpr he⟩
          · rintro ⟨⟨k, rfl, hg⟩, he⟩
            exact ⟨k, rfl, hg, (Entries.get?_eq_some_iff hk).mp he⟩
      | _ =>
          rw [show entryOffers c.name _ = [] by simp [entryOffers]]
          refine iff_of_false List.not_mem_nil ?_
          rintro ⟨⟨k, rfl, -⟩, he⟩
          cases he
  | none =>
      simp only [entryOffers, hc]
      cases p with
      | key k =>
          refine iff_of_false ?_ ?_
          · split
            · simp
            · split <;> simp
          · rintro ⟨rfl, -⟩
            rw [Place.entry, ofName?_name] at hc
            cases hc
      | version =>
          by_cases h : name = "version"
          · simp [h, Place.entry, Place.within?, eq_comm]
          · rw [if_neg h]
            split <;> simp [Place.entry, Ne.symm h]
      | firstRun =>
          by_cases h : name = "first_run"
          · simp [h, Place.entry, Place.within?, eq_comm]
          · rw [if_neg h]
            split <;> simp [Place.entry, Ne.symm h]

/-- An object offers one value at most for each place: the one that it has for it. -/
theorem mem_offers (he : (Value.object es).Keyed) :
    (p, v) ∈ offers es ↔ offered? es p = some v := by
  cases he with
  | object hk hv =>
      rw [offers, List.mem_flatMap, offered?, Option.bind_eq_some_iff]
      constructor
      · rintro ⟨⟨name, u⟩, hmem, ho⟩
        obtain ⟨rfl, hw⟩ := (mem_entryOffers (hv _ hmem)).mp ho
        exact ⟨u, (Entries.get?_eq_some_iff hk).mpr hmem, hw⟩
      · rintro ⟨u, hu, hw⟩
        have hmem := (Entries.get?_eq_some_iff hk).mp hu
        exact ⟨(p.entry, u), hmem, (mem_entryOffers (hv _ hmem)).mpr ⟨rfl, hw⟩⟩

theorem nodup_sectionOffers (hk : (es.map Prod.fst).Nodup) :
    ((sectionOffers c es).map Prod.fst).Nodup := by
  induction es with
  | nil => exact List.nodup_nil
  | cons e es ih =>
      obtain ⟨hname, hk⟩ := List.nodup_cons.mp hk
      rw [sectionOffers, List.filterMap_cons]
      cases hkey : c.key? e.1 with
      | none => exact ih hk
      | some k =>
          refine List.nodup_cons.mpr ⟨fun hmem => hname ?_, ih hk⟩
          obtain ⟨⟨q, v⟩, ho, hq⟩ := List.mem_map.mp hmem
          obtain ⟨l, hl, -, he⟩ := mem_sectionOffers.mp ho
          cases hq.symm.trans hl
          exact List.mem_map.mpr ⟨_, he, (Section.key?_eq_some.mp hkey).2⟩

/-- No entry of an object offers two values for one place. -/
theorem nodup_entryOffers (hu : u.Keyed) : ((entryOffers name u).map Prod.fst).Nodup := by
  unfold entryOffers
  split
  · cases hu with
    | object hk _ => exact nodup_sectionOffers hk
  · exact List.nodup_nil
  · split
    · simp
    · split <;> simp

/-- No object offers two values for one place. -/
theorem nodup_offers (he : (Value.object es).Keyed) : ((offers es).map Prod.fst).Nodup := by
  cases he with
  | object hk hv =>
      induction es with
      | nil => exact List.nodup_nil
      | cons e es ih =>
          obtain ⟨hname, hk⟩ := List.nodup_cons.mp hk
          have hes : ∀ e ∈ es, e.2.Keyed := fun e' he' => hv e' (List.mem_cons_of_mem e he')
          rw [offers, List.flatMap_cons, List.map_append, List.nodup_append]
          refine ⟨nodup_entryOffers (hv e List.mem_cons_self), ih hk hes, fun q hq r hr he => ?_⟩
          subst he
          obtain ⟨⟨q, v⟩, ho, rfl⟩ := List.mem_map.mp hq
          obtain ⟨⟨r, w⟩, ho', hr⟩ := List.mem_map.mp hr
          cases hr
          obtain ⟨hentry, -⟩ := (mem_entryOffers (hv e List.mem_cons_self)).mp ho
          obtain ⟨x, hx, -⟩ := Option.bind_eq_some_iff.mp ((mem_offers (.object hk hes)).mp ho')
          refine hname (hentry ▸ List.mem_map.mpr ⟨_, (Entries.get?_eq_some_iff hk).mp hx, rfl⟩)

end Cockpit.Settings
