import Cockpit.Proofs.Devices.Hangar
import Cockpit.Proofs.Wire.Typed
import Mathlib.Data.List.Forall2

/-!
# Commands from catalogs

A catalog is plain data of any shape.  `Airframe.ofCatalog_eq_ok` says what is known of one that
is accepted: its devices and actions are read one for one, names are distinct texts, and numbers
of devices, numbers of controls and delays are integers.  What a control is set to is taken as
it is.

So each action has a press, in either order of its two settings, and a press can be sent.  It
meets the wire format in everything but the settings, which `Press.Meets` leaves open.  The
settings are numbers for all devices and actions just if they are in all entries of the catalog
(`Airframe.ofCatalog_meets_iff`).
-/

namespace Cockpit

open Op

/-! ## Fields of a press on the wire -/

/-- Whether a value is a number by its type.  Truth values are not. -/
def Value.IsNumeric : Value → Prop
  | .int _ => True
  | .float _ => True
  | _ => False

instance : (v : Value) → Decidable v.IsNumeric
  | .int _ | .float _ => isTrue trivial
  | .null | .bool _ | .text _ | .list _ | .object _ => isFalse id

/-- Whether the payload of a press is as the wire format has it, where controls are set to values
of some kind. -/
structure PressFormat (number : Value → Prop) (es : Entries) : Prop where
  keys : (es.map Prod.fst).Sublist ["dev", "code", "dn", "up", "dt"]
  device : ∃ n, es.get? "dev" = some (.int n)
  code : ∃ n, es.get? "code" = some (.int n)
  down : ∃ v, es.get? "dn" = some v ∧ number v
  up : ∀ v, es.get? "up" = some v → number v ∧ v.isNonzero = true
  delay : ∀ v, es.get? "dt" = some v → ∃ n, v = .int n ∧ n ≠ 0

/-- Whether a press is sent, at first as an object of the wire format. -/
def Press.Meets (number : Value → Prop) (p : Press) : Prop :=
  ∃ es vs, (Command.action p).objects =
    .ok (.object [("f", .text "Actn"), ("a", .object es)] :: vs) ∧ PressFormat number es

/-- Whether the fields of a press that are no settings are integers. -/
structure Press.Whole (p : Press) : Prop where
  device : ∃ n, p.device = .int n
  code : ∃ n, p.code = .int n
  delay : ∃ n, p.delay = .int n
  postWait : ∃ n, p.postWait = .int n

theorem Value.isNumeric_collapse {v : Value} : v.collapse.IsNumeric ↔ v.IsNumeric := by
  cases v with
  | float x =>
      rw [collapse]
      cases x.toInt? <;> exact Iff.rfl
  | _ => exact Iff.rfl

theorem Double.signedUnits_eq_zero {negative : Bool} {u : Nat} :
    signedUnits negative u = 0 ↔ u = 0 := by
  cases negative <;> simp [signedUnits]

theorem Value.isNonzero_int_iff {n : Int} : (Value.int n).isNonzero = true ↔ n ≠ 0 := by
  rw [isNonzero_int, decide_eq_true_iff]

theorem Double.compareInt?_zero (negative : Bool) (u : Nat) :
    (Double.finite negative u).compareInt? 0 = some (compare (signedUnits negative u) 0) := by
  rw [compareInt?, Int.zero_mul]
  rfl

theorem Value.isNonzero_finite_iff {negative : Bool} {u : Nat} :
    (Value.float (.finite negative u)).isNonzero = true ↔ u ≠ 0 := by
  have hcompare : (Value.float (.finite negative u)).sameNumber (.int 0) =
      ((Double.finite negative u).compareInt? 0 == some .eq) := rfl
  rw [isNonzero, hcompare, Double.compareInt?_zero, ne_eq,
    ← @Double.signedUnits_eq_zero negative u]
  simp

/-- A float that equals an integer is zero just if the integer is. -/
theorem Value.isNonzero_of_toInt? {x : Double} {n : Int} (h : x.toInt? = some n) :
    (Value.float x).isNonzero = (Value.int n).isNonzero := by
  cases x with
  | finite s u =>
      rw [Double.toInt?] at h
      split at h
      · rename_i hwhole
        obtain rfl := Option.some.inj h
        rw [Bool.eq_iff_iff, isNonzero_finite_iff, isNonzero_int_iff, ne_eq, ne_eq,
          Double.signedUnits_eq_zero, not_iff_not]
        -- a multiple of the unit is zero just if it holds the unit no times
        have hu := Nat.div_add_mod u Double.one
        rw [hwhole, Nat.add_zero] at hu
        refine ⟨fun h => by rw [h, Nat.zero_div], fun h => ?_⟩
        rw [← hu, h, Nat.mul_zero]
      · cases h
  | _ => cases h

theorem Value.isNonzero_collapse (v : Value) : v.collapse.isNonzero = v.isNonzero := by
  cases v with
  | float x =>
      rw [collapse]
      cases hx : x.toInt? with
      | none => rfl
      | some n => exact (isNonzero_of_toInt? hx).symm
  | _ => rfl

/-- The payload of a press with integers has the format but for its settings.  The setting at the
end counts if it is not zero. -/
theorem pressFormat_iff {number : Value → Prop} {device code delay : Int} {down up : Value} :
    PressFormat number ([("dev", .int device), ("code", .int code), ("dn", down.collapse)]
        ++ (if up.isNonzero then [("up", up.collapse)] else [])
        ++ (if delay ≠ 0 then [("dt", .int delay)] else [])) ↔
      number down.collapse ∧ (up.isNonzero = true → number up.collapse) := by
  constructor
  · rintro ⟨-, -, -, ⟨v, hv, hdown⟩, hup, -⟩
    cases hv
    refine ⟨hdown, fun hu => (hup up.collapse ?_).1⟩
    rw [if_pos hu]
    rfl
  · rintro ⟨hdown, hup⟩
    refine ⟨?_, ⟨device, rfl⟩, ⟨code, rfl⟩, ⟨_, rfl, hdown⟩, fun v hv => ?_, fun v hv => ?_⟩
    · split <;> split <;> simp
    · by_cases hu : up.isNonzero = true
      · rw [if_pos hu] at hv
        cases hv
        exact ⟨hup hu, (Value.isNonzero_collapse up).trans hu⟩
      · rw [if_neg hu] at hv
        split at hv <;> cases hv
    · by_cases ht : delay = 0
      · rw [if_neg (not_not_intro ht)] at hv
        split at hv <;> cases hv
      · rw [if_pos ht] at hv
        split at hv
        · cases hv
          exact ⟨delay, rfl, ht⟩
        · cases hv
          exact ⟨delay, rfl, ht⟩

theorem Command.objects_eq {c : Command} {es : Entries} {vs : List Value}
    (hp : c.payload = .ok es) (ht : c.trailer = .ok vs) :
    c.objects = .ok (.object [("f", .text c.tag), ("a", .object es)] :: vs) := by
  rw [objects, toObject, hp, ht]
  rfl

theorem Press.Whole.meets_iff {p : Press} (h : p.Whole) {number : Value → Prop} :
    p.Meets number ↔
      number p.down.collapse ∧ (p.up.isNonzero = true → number p.up.collapse) := by
  obtain ⟨⟨device, hd⟩, ⟨code, hc⟩, ⟨delay, ht⟩, ⟨wait, hw⟩⟩ := h
  have hobjects := Command.objects_eq (c := .action p) (Command.pressPayload_eq hd hc ht)
    (Command.trailer_int (congrArg some hw))
  rw [Press.Meets, hobjects, ← @pressFormat_iff number device code delay]
  constructor
  · rintro ⟨es, vs, he, hes⟩
    cases he
    exact hes
  · exact fun hes => ⟨_, _, rfl, hes⟩

/-! ## What is accepted -/

/-- What is on one side of lists that go together has its like on the other. -/
theorem exists_of_forall₂ {α β : Type} {R : α → β → Prop} {xs : List α} {ys : List β}
    (h : List.Forall₂ R xs ys) :
    (∀ x ∈ xs, ∃ y ∈ ys, R x y) ∧ ∀ y ∈ ys, ∃ x ∈ xs, R x y := by
  induction h with
  | nil => exact ⟨nofun, nofun⟩
  | cons hR _ ih =>
      refine ⟨fun x hx => ?_, fun y hy => ?_⟩
      · rcases List.mem_cons.mp hx with rfl | hx
        · exact ⟨_, List.mem_cons_self, hR⟩
        · obtain ⟨y, hy, hxy⟩ := ih.1 x hx
          exact ⟨y, List.mem_cons_of_mem _ hy, hxy⟩
      · rcases List.mem_cons.mp hy with rfl | hy
        · exact ⟨_, List.mem_cons_self, hR⟩
        · obtain ⟨x, hx, hxy⟩ := ih.2 y hy
          exact ⟨x, List.mem_cons_of_mem _ hx, hxy⟩

/-- Whether a value is among the items under a key, if there are any. -/
def Entries.Lists (es : Entries) (key : String) (v : Value) : Prop :=
  ∃ items, (es.getD key (.list [])).items = .ok items ∧ v ∈ items

namespace Airframe

variable {data v : Value} {es : Entries} {strict : Bool} {a a' : Airframe} {d d' : Device}
  {x : Action} {items : List Value} {j j' : Log.Journal}

/-- What an action is that was read from an entry.  What it sets the control to is taken as it
is. -/
structure ReadsAction (v : Value) (x : Action) : Prop where
  name : ∃ s, x.name = .text s
  code : ∃ n, x.code = .int n
  delay : ∃ n, x.delay = .int n
  settings : ∃ es : Entries, v = .object es ∧ x.down = es.getD "dn" (.int 1) ∧
    x.up = es.getD "up" (.int 0)

/-- What a device is that was read from an entry. -/
structure ReadsDevice (v : Value) (d : Device) : Prop where
  id : ∃ n, d.id = .int n
  name : ∃ s, d.name = .text s
  distinct : Distinct d.names
  actions : ∃ (es : Entries) (items : List Value), v = .object es ∧
    (es.getD "actions" (.list [])).items = .ok items ∧ List.Forall₂ ReadsAction items d.actions

/-- What an airframe is that was read from a catalog. -/
structure ReadsAirframe (data : Value) (a : Airframe) : Prop where
  distinct : Distinct a.names
  devices : ∃ (es : Entries) (items : List Value), data = .object es ∧
    (es.getD "devices" (.list [])).items = .ok items ∧ List.Forall₂ ReadsDevice items a.devices

theorem fields_eq_ok (h : fields v = .ok es) : v = .object es := by
  cases v with
  | object es' => cases h; rfl
  | _ => cases h

theorem actionOf_eq_ok (h : actionOf v = .ok x) : ReadsAction v x := by
  obtain ⟨es, hes, h⟩ := exists_of_bind_ok h
  obtain ⟨u, -, h⟩ := exists_of_bind_ok h
  obtain ⟨code, -, h⟩ := exists_of_bind_ok h
  obtain ⟨name, -, h⟩ := exists_of_bind_ok h
  obtain ⟨delay, -, h⟩ := exists_of_bind_ok h
  cases h
  exact ⟨⟨_, rfl⟩, ⟨code, rfl⟩, ⟨delay, rfl⟩, es, fields_eq_ok hes, rfl, rfl⟩

/-- Actions that are read and added one after another. -/
theorem actions_of_foldlM
    (h : items.foldlM (fun d v => do d.insert (← actionOf v)) d = .ok d') :
    ∃ xs, List.Forall₂ ReadsAction items xs ∧ d' = { d with actions := d.actions ++ xs } ∧
      (Distinct d.names → Distinct d'.names) := by
  induction items generalizing d with
  | nil =>
      cases h
      exact ⟨[], .nil, by simp, id⟩
  | cons v items ih =>
      obtain ⟨d₁, hd₁, h⟩ := exists_of_bind_ok h
      obtain ⟨x, hx, hd₁⟩ := exists_of_bind_ok hd₁
      rcases d.insert_cases x with ⟨-, f, hf⟩ | ⟨hfree, hinsert⟩
      · cases hd₁.symm.trans hf
      · cases hd₁.symm.trans hinsert
        obtain ⟨xs, hxs, rfl, hdistinct⟩ := ih h
        refine ⟨x :: xs, .cons (actionOf_eq_ok hx) hxs, by simp, fun hd => hdistinct ?_⟩
        rw [Device.names, List.map_append]
        exact hd.concat fun ht => hfree (Or.inr (Or.inr ht))

theorem deviceOf_eq_ok (h : deviceOf strict v = .ok d) : ReadsDevice v d := by
  obtain ⟨es, hes, h⟩ := exists_of_bind_ok h
  obtain ⟨u, -, h⟩ := exists_of_bind_ok h
  obtain ⟨id, -, h⟩ := exists_of_bind_ok h
  obtain ⟨name, -, h⟩ := exists_of_bind_ok h
  obtain ⟨items, hitems, h⟩ := exists_of_bind_ok h
  obtain ⟨xs, hxs, rfl, hdistinct⟩ := actions_of_foldlM h
  exact ⟨⟨id, rfl⟩, ⟨_, rfl⟩, hdistinct List.Pairwise.nil, es, items, fields_eq_ok hes, hitems, hxs⟩

/-- Sealing a device leaves what was read. -/
theorem ReadsDevice.sealUp (h : ReadsDevice v d) : ReadsDevice v d.sealUp :=
  ⟨h.id, h.name, h.distinct, h.actions⟩

/-- Devices that are read and registered one after another. -/
theorem devices_of_foldlM
    (h : (items.foldlM (fun (a : Airframe) v => do a.register (← deviceOf strict v)) a :
      Op Log.Journal Airframe).run j = (.ok a', j')) :
    ∃ ds, List.Forall₂ ReadsDevice items ds ∧ a' = { a with devices := a.devices ++ ds } ∧
      (Distinct a.names → Distinct a'.names) := by
  induction items generalizing a j with
  | nil =>
      cases h
      exact ⟨[], .nil, by simp, id⟩
  | cons v items ih =>
      obtain ⟨a₁, j₁, ha₁, h⟩ := run_bind_eq_ok h
      obtain ⟨d, j₂, hd, ha₁⟩ := run_bind_eq_ok ha₁
      rcases a.register_cases d j₂ with ⟨-, f, hf⟩ | ⟨hfree, j₃, hregister⟩
      · cases ha₁.symm.trans hf
      · cases ha₁.symm.trans hregister
        obtain ⟨ds, hds, rfl, hdistinct⟩ := ih h
        have hread : ReadsDevice v d := deviceOf_eq_ok (Prod.mk.inj hd).1
        refine ⟨d.sealUp :: ds, .cons hread.sealUp hds, by simp, fun ha => hdistinct ?_⟩
        rw [names, List.map_append]
        exact ha.concat fun ht => hfree (Or.inr ht)

/-- What is known of a catalog that is accepted. -/
theorem ofCatalog_eq_ok (h : (ofCatalog data strict).run j = (.ok a, j')) :
    ReadsAirframe data a := by
  cases data with
  | object es =>
      obtain ⟨items, j₁, hitems, h⟩ := run_bind_eq_ok h
      obtain ⟨a₁, j₂, ha, h⟩ := run_bind_eq_ok h
      obtain ⟨ds, hds, rfl, hdistinct⟩ := devices_of_foldlM ha
      cases h
      exact ⟨hdistinct List.Pairwise.nil, es, items, rfl, (Prod.mk.inj hitems).1, hds⟩
  | _ => cases h

end Airframe

/-! ## Presses of a catalog -/

theorem Value.clampWait_int (n : Int) : (Value.int n).clampWait = .ok (.int (max 0 n)) := by
  rw [clampWait, isPositive_int]
  by_cases hn : 0 < n
  · rw [Int.max_eq_right (Int.le_of_lt hn)]
    simp only [hn, decide_true]
    rfl
  · rw [Int.max_eq_left (Int.not_lt.mp hn)]
    simp only [hn, decide_false]
    rfl

namespace Device

variable {d : Device} {x : Action} {v : Value} {n : Int} {p : Press}

/-- The press of an action as it is. -/
def plainPress (d : Device) (x : Action) (n : Int) : Press :=
  ⟨d.id, x.code, x.down, x.up, x.delay, .int (max 0 n)⟩

/-- The press of an action with its settings the other way around. -/
def turnedPress (d : Device) (x : Action) (n : Int) : Press :=
  ⟨d.id, x.code, x.up, x.down, x.delay, .int (max 0 n)⟩

/-- Whether a press is that of a named action, as it is or without any parameters of its own. -/
def Performs (d : Device) (name : Value) (n : Int) (p : Press) : Prop :=
  ∃ j j', (d.command name (.int n)).run j = (.ok (some p), j') ∨
    (d.adaptedPress? name (.int 0) .null .null (.int n)).run j = (.ok (some p), j')

/-- Among distinct names an action is found under its own. -/
theorem run_lookup_own (hd : Distinct d.names) (hx : x ∈ d.actions) (hs : ∃ s, x.name = .text s)
    (j : Log.Journal) : (d.lookup x.name).run j = (.ok (some x), j) := by
  obtain ⟨s, hs⟩ := hs
  rw [lookup, run_liftM_bind, hs, find?_eq d rfl, hd.find?_eq hx hs]
  rfl

section

variable (hd : Distinct d.names) (hx : x ∈ d.actions) (hs : ∃ s, x.name = .text s)
include hd hx hs

theorem run_command_own (n : Int) (j : Log.Journal) :
    (d.command x.name (.int n)).run j = (.ok (some (d.plainPress x n)), j) := by
  rw [command, run_bind_ok (run_lookup_own hd hx hs j)]
  dsimp only
  rw [press, Value.clampWait_int]
  rfl

theorem run_adaptedPress?_own (n : Int) (j : Log.Journal) :
    (d.adaptedPress? x.name (.int 0) .null .null (.int n)).run j =
      (.ok (some (d.turnedPress x n)), j) := by
  rw [adaptedPress?, run_bind_ok (run_lookup_own hd hx hs j)]
  dsimp only
  rw [press, Value.clampWait_int]
  rfl

theorem performs_iff : d.Performs x.name n p ↔ p = d.plainPress x n ∨ p = d.turnedPress x n := by
  constructor
  · rintro ⟨j, j', h | h⟩
    · rw [run_command_own hd hx hs] at h
      cases h
      exact Or.inl rfl
    · rw [run_adaptedPress?_own hd hx hs] at h
      cases h
      exact Or.inr rfl
  · rintro (rfl | rfl)
    · exact ⟨{}, {}, Or.inl (run_command_own hd hx hs n {})⟩
    · exact ⟨{}, {}, Or.inr (run_adaptedPress?_own hd hx hs n {})⟩

end

theorem plainPress_whole {v w : Value} (hd : Airframe.ReadsDevice v d)
    (hx : Airframe.ReadsAction w x) (n : Int) : (d.plainPress x n).Whole :=
  ⟨hd.id, hx.code, hx.delay, _, rfl⟩

theorem turnedPress_whole {v w : Value} (hd : Airframe.ReadsDevice v d)
    (hx : Airframe.ReadsAction w x) (n : Int) : (d.turnedPress x n).Whole :=
  ⟨hd.id, hx.code, hx.delay, _, rfl⟩

/-- The presses of an action that was read meet the wire format just if its settings are
numbers.  A setting that counts as zero is left out at the end of one press, but not at the
start of the other. -/
theorem performs_meets_iff {v w : Value} (hd : Airframe.ReadsDevice v d)
    (hx : Airframe.ReadsAction w x) (hmem : x ∈ d.actions) :
    (∀ n p, d.Performs x.name n p → p.Meets Value.IsNumeric) ↔
      x.down.IsNumeric ∧ x.up.IsNumeric := by
  have hperforms {n : Int} {p : Press} := performs_iff (n := n) (p := p) hd.distinct hmem hx.name
  constructor
  · intro h
    have hplain := (plainPress_whole hd hx 0).meets_iff.mp (h 0 _ (hperforms.mpr (Or.inl rfl)))
    have hturned := (turnedPress_whole hd hx 0).meets_iff.mp (h 0 _ (hperforms.mpr (Or.inr rfl)))
    exact ⟨Value.isNumeric_collapse.mp hplain.1, Value.isNumeric_collapse.mp hturned.1⟩
  · rintro ⟨hdown, hup⟩ n p hp
    have hdown' := Value.isNumeric_collapse.mpr hdown
    have hup' := Value.isNumeric_collapse.mpr hup
    rcases hperforms.mp hp with rfl | rfl
    · exact (plainPress_whole hd hx n).meets_iff.mpr ⟨hdown', fun _ => hup'⟩
    · exact (turnedPress_whole hd hx n).meets_iff.mpr ⟨hup', fun _ => hdown'⟩

end Device

namespace Airframe

variable {data : Value} {es : Entries} {strict : Bool} {a : Airframe} {d : Device} {x : Action}
  {j j' : Log.Journal}

/-- Whether a catalog has an entry for an action. -/
def HasAction (data : Value) (es : Entries) : Prop :=
  ∃ top dev : Entries, data = .object top ∧ top.Lists "devices" (.object dev) ∧
    dev.Lists "actions" (.object es)

/-- Whether an entry sets a control to numbers, where what it leaves out is one and zero. -/
def SetsNumbers (es : Entries) : Prop :=
  (es.getD "dn" (.int 1)).IsNumeric ∧ (es.getD "up" (.int 0)).IsNumeric

theorem ReadsDevice.exists_reads {v : Value} (h : ReadsDevice v d) (hx : x ∈ d.actions) :
    ∃ w, ReadsAction w x := by
  obtain ⟨es, items, -, -, hreads⟩ := h.actions
  obtain ⟨w, -, hw⟩ := (exists_of_forall₂ hreads).2 x hx
  exact ⟨w, hw⟩

theorem ReadsAirframe.exists_reads (h : ReadsAirframe data a) (hd : d ∈ a.devices) :
    ∃ v, ReadsDevice v d := by
  obtain ⟨es, items, -, -, hreads⟩ := h.devices
  obtain ⟨v, -, hv⟩ := (exists_of_forall₂ hreads).2 d hd
  exact ⟨v, hv⟩

/-- Each action of an airframe that was read is there for an entry. -/
theorem ReadsAirframe.exists_entry (h : ReadsAirframe data a) (hd : d ∈ a.devices)
    (hx : x ∈ d.actions) :
    ∃ es, HasAction data es ∧ (SetsNumbers es ↔ x.down.IsNumeric ∧ x.up.IsNumeric) := by
  obtain ⟨top, items, rfl, hitems, hreads⟩ := h.devices
  obtain ⟨v, hv, hdevice⟩ := (exists_of_forall₂ hreads).2 d hd
  obtain ⟨dev, items', rfl, hitems', hreads'⟩ := hdevice.actions
  obtain ⟨w, hw, haction⟩ := (exists_of_forall₂ hreads').2 x hx
  obtain ⟨es, rfl, hdown, hup⟩ := haction.settings
  refine ⟨es, ⟨top, dev, rfl, ⟨items, hitems, hv⟩, ⟨items', hitems', hw⟩⟩, ?_⟩
  rw [SetsNumbers, hdown, hup]

/-- Each entry of a catalog is there as an action of the airframe that was read. -/
theorem ReadsAirframe.exists_action (h : ReadsAirframe data a) (he : HasAction data es) :
    ∃ d ∈ a.devices, ∃ x ∈ d.actions,
      (SetsNumbers es ↔ x.down.IsNumeric ∧ x.up.IsNumeric) := by
  obtain ⟨top, dev, rfl, ⟨ds, hds, hdev⟩, ⟨xs, hxs, hes⟩⟩ := he
  obtain ⟨top', items, htop, hitems, hreads⟩ := h.devices
  cases htop
  cases hds.symm.trans hitems
  obtain ⟨d, hd, hdevice⟩ := (exists_of_forall₂ hreads).1 _ hdev
  obtain ⟨dev', items', heq, hitems', hreads'⟩ := hdevice.actions
  cases heq
  cases hxs.symm.trans hitems'
  obtain ⟨x, hx, haction⟩ := (exists_of_forall₂ hreads').1 _ hes
  obtain ⟨es', heq', hdown, hup⟩ := haction.settings
  cases heq'
  exact ⟨d, hd, x, hx, by rw [SetsNumbers, hdown, hup]⟩

/-- The actions of an accepted catalog all have presses, which meet the wire format but for what
controls are set to.  That is numbers everywhere just if it is in the catalog. -/
theorem ofCatalog_meets_iff (h : (ofCatalog data strict).run j = (.ok a, j')) :
    (∀ d ∈ a.devices, ∀ x ∈ d.actions, ∀ n k, ∃ p q,
      (d.command x.name (.int n)).run k = (.ok (some p), k) ∧
      (d.adaptedPress? x.name (.int 0) .null .null (.int n)).run k = (.ok (some q), k) ∧
      p.Meets (fun _ => True) ∧ q.Meets (fun _ => True)) ∧
    ((∀ d ∈ a.devices, ∀ x ∈ d.actions, ∀ n p, d.Performs x.name n p → p.Meets Value.IsNumeric) ↔
      ∀ es, HasAction data es → SetsNumbers es) := by
  have hreads := ofCatalog_eq_ok h
  refine ⟨fun d hd x hx n k => ?_, fun hmeets es hes => ?_, fun hnumbers d hd x hx => ?_⟩
  · obtain ⟨v, hdevice⟩ := hreads.exists_reads hd
    obtain ⟨w, haction⟩ := hdevice.exists_reads hx
    exact ⟨d.plainPress x n, d.turnedPress x n,
      Device.run_command_own hdevice.distinct hx haction.name n k,
      Device.run_adaptedPress?_own hdevice.distinct hx haction.name n k,
      (Device.plainPress_whole hdevice haction n).meets_iff.mpr ⟨trivial, fun _ => trivial⟩,
      (Device.turnedPress_whole hdevice haction n).meets_iff.mpr ⟨trivial, fun _ => trivial⟩⟩
  · obtain ⟨d, hd, x, hx, hsets⟩ := hreads.exists_action hes
    obtain ⟨v, hdevice⟩ := hreads.exists_reads hd
    obtain ⟨w, haction⟩ := hdevice.exists_reads hx
    exact hsets.mpr ((Device.performs_meets_iff hdevice haction hx).mp (hmeets d hd x hx))
  · obtain ⟨v, hdevice⟩ := hreads.exists_reads hd
    obtain ⟨w, haction⟩ := hdevice.exists_reads hx
    obtain ⟨es, hes, hsets⟩ := hreads.exists_entry hd hx
    exact (Device.performs_meets_iff hdevice haction hx).mpr (hsets.mp (hnumbers es hes))

/-- A catalog with one device and one action. -/
def smallCatalog (device action : Entries) : Value :=
  .object [("airframe", .text "F-16C"),
    ("devices", .list [.object (device ++ [("actions", .list [.object action])])])]

/-- A catalog with texts for numbers and a number for a name, but with numbers for settings. -/
def looseCatalog : Value :=
  smallCatalog [("id", .text " 17"), ("name", .int 5)]
    [("name", .bool true), ("code", .text "3001"), ("delay", .bool true),
      ("up", .float (.ofRatio true 1 2))]

/-- A catalog with a text for a setting. -/
def quotedCatalog : Value :=
  smallCatalog [("id", .int 17), ("name", .text "UFC")]
    [("name", .text "1"), ("code", .int 3001), ("dn", .text "1")]

theorem ofCatalog_meets_loose : ∃ a j, (ofCatalog looseCatalog).run {} = (.ok a, j) ∧
    a.devices.map Device.names = [[.text "True"]] ∧
    ∀ d ∈ a.devices, ∀ x ∈ d.actions, ∀ n p, d.Performs x.name n p → p.Meets Value.IsNumeric := by
  obtain ⟨a, j, hrun, hnames⟩ : ∃ a j, (ofCatalog looseCatalog).run {} = (.ok a, j) ∧
    a.devices.map Device.names = [[.text "True"]] := ⟨_, _, rfl, rfl⟩
  refine ⟨a, j, hrun, hnames, (ofCatalog_meets_iff hrun).2.mpr fun es hes => ?_⟩
  obtain ⟨top, dev, htop, ⟨ds, hds, hdev⟩, ⟨xs, hxs, hx⟩⟩ := hes
  cases htop
  cases hds
  cases List.mem_singleton.mp hdev
  cases hxs
  cases List.mem_singleton.mp hx
  exact ⟨trivial, trivial⟩

/-- A text for a setting is accepted and is sent as it is. -/
theorem not_meets_quoted : ∃ a j, (ofCatalog quotedCatalog).run {} = (.ok a, j) ∧
    ¬ ∀ d ∈ a.devices, ∀ x ∈ d.actions, ∀ n p,
      d.Performs x.name n p → p.Meets Value.IsNumeric := by
  obtain ⟨a, j, hrun, d, hd, x, hx, hdown⟩ : ∃ a j, (ofCatalog quotedCatalog).run {} = (.ok a, j) ∧
    ∃ d ∈ a.devices, ∃ x ∈ d.actions, x.down = .text "1" :=
    ⟨_, _, rfl, _, List.mem_singleton_self _, _, List.mem_singleton_self _, rfl⟩
  obtain ⟨v, hdevice⟩ := (ofCatalog_eq_ok hrun).exists_reads hd
  obtain ⟨w, haction⟩ := hdevice.exists_reads hx
  refine ⟨a, j, hrun, fun h => ?_⟩
  have hnumeric := ((Device.performs_meets_iff hdevice haction hx).mp (h d hd x hx)).1
  rw [hdown] at hnumeric
  exact hnumeric

end Airframe

end Cockpit
