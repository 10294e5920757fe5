import Cockpit.Proofs.Devices.Catalogs
import Mathlib.Data.List.Induction
import Mathlib.Data.List.Nodup

/-!
# Reading catalogs

A `Catalog` is what plain data says of an airframe when it is well formed: names are texts, and
numbers of devices, numbers of controls and delays are integers.  `Catalog.Describes` leaves
open in which order an object has its keys and what other keys it has.

What has been read at any time is what a shorter catalog describes.  The next name makes it
longer, or ends the reading in the fault of a duplicate (`DeviceEntry.insert_action`,
`Catalog.register_device`).  So a reading gets through entries whose names are distinct, and it
ends at the first name that repeats an earlier one.  Of a device the actions are read before its
own name is registered.

`Airframe.ofCatalog_reproduces` says this of all catalogs.
-/

namespace Cockpit

open Op

/-! ## Repeated names -/

/-- Whether a name is the first of a list that repeats an earlier one. -/
def FirstRepeated (names : List String) (n : String) : Prop :=
  ∃ before after, names = before ++ n :: after ∧ before.Nodup ∧ n ∈ before

theorem nodup_snoc {names : List String} {n : String} (h : names.Nodup) (hn : n ∉ names) :
    (names ++ [n]).Nodup := by
  rw [← List.concat_eq_append]
  exact List.Nodup.concat hn h

theorem nodup_or_firstRepeated (names : List String) :
    names.Nodup ∨ ∃ n, FirstRepeated names n := by
  induction names using List.reverseRecOn with
  | nil => exact .inl List.nodup_nil
  | append_singleton names n ih =>
      rcases ih with hnodup | ⟨m, before, after, rfl, hbefore, hm⟩
      · by_cases hn : n ∈ names
        · exact .inr ⟨n, names, [], rfl, hnodup, hn⟩
        · exact .inl (nodup_snoc hnodup hn)
      · exact .inr ⟨m, before, after ++ [n], by simp, hbefore, hm⟩

theorem distinct_texts_iff {names : List String} :
    Distinct (names.map .text) ↔ names.Nodup := by
  rw [Distinct, List.pairwise_map]
  refine List.Pairwise.iff fun {m n} => ?_
  rw [← Bool.not_eq_true, Value.same_text_iff]
  simp

theorem taken_texts_iff {names : List String} {n : String} :
    Taken (names.map .text) (.text n) ↔ n ∈ names := by
  simp [Taken, Value.same_text_iff]

/-- A list that goes together with one in two parts has two such parts itself. -/
theorem exists_append_of_forall₂ {α β : Type} {R : α → β → Prop} {xs ys : List α} {zs : List β}
    (h : List.Forall₂ R (xs ++ ys) zs) :
    ∃ us vs, zs = us ++ vs ∧ List.Forall₂ R xs us ∧ List.Forall₂ R ys vs := by
  refine ⟨_, _, (List.take_append_drop xs.length zs).symm, ?_, ?_⟩
  · exact (List.forall₂_take_append _ _ _ h.flip).flip
  · exact (List.forall₂_drop_append _ _ _ h.flip).flip

/-! ## Catalogs -/

/-- An action in a catalog. -/
structure ActionEntry where
  name : String
  code : Int
  delay : Option Int := none
  down : Option Value := none
  up : Option Value := none

/-- A device in a catalog. -/
structure DeviceEntry where
  name : String
  id : Int
  actions : List ActionEntry := []

/-- A catalog whose names are texts and whose numbers are integers. -/
structure Catalog where
  airframe : String := ""
  devices : List DeviceEntry := []

namespace ActionEntry

/-- The action of an entry.  What the entry leaves out has a default. -/
def action (a : ActionEntry) : Action :=
  { name := .text a.name
    code := .int a.code
    delay := .int (a.delay.getD 0)
    down := a.down.getD (.int 1)
    up := a.up.getD (.int 0) }

/-- Whether a value is the plain data of an action. -/
def Describes (a : ActionEntry) (v : Value) : Prop :=
  ∃ es : Entries, v = .object es ∧ es.get? "name" = some (.text a.name) ∧
    es.get? "code" = some (.int a.code) ∧ es.get? "delay" = a.delay.map .int ∧
    es.get? "dn" = a.down ∧ es.get? "up" = a.up

end ActionEntry

namespace DeviceEntry

/-- The names of the actions of a device. -/
def names (d : DeviceEntry) : List String := d.actions.map ActionEntry.name

/-- The device of an entry before it is registered. -/
def device (d : DeviceEntry) (strict : Bool) : Device :=
  { id := .int d.id, name := .text d.name, strict, actions := d.actions.map ActionEntry.action }

/-- Whether a value is the plain data of a device. -/
def Describes (d : DeviceEntry) (v : Value) : Prop :=
  ∃ (es : Entries) (items : List Value), v = .object es ∧ es.get? "name" = some (.text d.name) ∧
    es.get? "id" = some (.int d.id) ∧ es.getD "actions" (.list []) = .list items ∧
    List.Forall₂ ActionEntry.Describes d.actions items

/-- Whether the names of devices are distinct, and those of the actions of each. -/
structure Settled (ds : List DeviceEntry) : Prop where
  names : (ds.map DeviceEntry.name).Nodup
  actions : ∀ d ∈ ds, d.names.Nodup

end DeviceEntry

namespace Catalog

open DeviceEntry (Settled)

/-- The airframe of a catalog, with all devices sealed. -/
def airframeOf (c : Catalog) (strict : Bool) : Airframe :=
  { name := .text c.airframe, devices := c.devices.map fun d => (d.device strict).sealUp }

/-- Whether a value is the plain data of a catalog. -/
def Describes (c : Catalog) (v : Value) : Prop :=
  ∃ (es : Entries) (items : List Value), v = .object es ∧
    es.getD "airframe" (.text "") = .text c.airframe ∧
    es.getD "devices" (.list []) = .list items ∧
    List.Forall₂ DeviceEntry.Describes c.devices items

/-- The fault of the first duplicate of a catalog in the order of reading. -/
inductive FirstDuplicate (c : Catalog) : Fault → Prop where
  /-- A device has two actions of a name. -/
  | action {before after : List DeviceEntry} {d : DeviceEntry} {n : String}
    (hc : c.devices = before ++ d :: after) (hbefore : Settled before)
    (hn : FirstRepeated d.names n) : FirstDuplicate c (.duplicateAction (.text d.name) (.text n))
  /-- A device has the name of an earlier one. -/
  | device {before after : List DeviceEntry} {d : DeviceEntry}
    (hc : c.devices = before ++ d :: after) (hbefore : Settled before) (hd : d.names.Nodup)
    (hn : d.name ∈ before.map DeviceEntry.name) :
    FirstDuplicate c (.duplicateDevice (.text c.airframe) (.text d.name))

end Catalog

namespace DeviceEntry

/-- Devices are settled, or there is a first one that is not with those before it. -/
theorem settled_or_first (ds : List DeviceEntry) :
    Settled ds ∨ ∃ before d after, ds = before ++ d :: after ∧ Settled before ∧
      ((∃ n, FirstRepeated d.names n) ∨
        d.names.Nodup ∧ d.name ∈ before.map DeviceEntry.name) := by
  induction ds using List.reverseRecOn with
  | nil => exact .inl ⟨List.nodup_nil, nofun⟩
  | append_singleton ds d ih =>
      rcases ih with hsettled | ⟨before, e, after, rfl, hbefore, he⟩
      · rcases nodup_or_firstRepeated d.names with hactions | hrepeated
        · by_cases hn : d.name ∈ ds.map DeviceEntry.name
          · exact .inr ⟨ds, d, [], rfl, hsettled, .inr ⟨hactions, hn⟩⟩
          · refine .inl ⟨?_, ?_⟩
            · rw [List.map_append]
              exact nodup_snoc hsettled.names hn
            · intro e he
              rcases List.mem_append.mp he with he | he
              · exact hsettled.actions e he
              · exact List.mem_singleton.mp he ▸ hactions
        · exact .inr ⟨ds, d, [], rfl, hsettled, .inl hrepeated⟩
      · exact .inr ⟨before, e, after ++ [d], by simp, hbefore, he⟩

end DeviceEntry

/-! ## One entry after another -/

namespace DeviceEntry

/-- The entry with more actions. -/
def append (d : DeviceEntry) (xs : List ActionEntry) : DeviceEntry :=
  { d with actions := d.actions ++ xs }

variable {d : DeviceEntry} {x : ActionEntry} {strict : Bool}

theorem append_append (d : DeviceEntry) (xs ys : List ActionEntry) :
    (d.append xs).append ys = d.append (xs ++ ys) :=
  congrArg (fun as => { d with actions := as }) (List.append_assoc _ _ _)

theorem names_append (d : DeviceEntry) (xs : List ActionEntry) :
    (d.append xs).names = d.names ++ xs.map ActionEntry.name := List.map_append

theorem names_device (d : DeviceEntry) (strict : Bool) :
    (d.device strict).names = d.names.map .text := by
  rw [Device.names, names, device, List.map_map, List.map_map]
  rfl

/-- An action is added to a device unless its name is taken. -/
theorem insert_action (d : DeviceEntry) (x : ActionEntry) (strict : Bool) :
    (x.name ∈ d.names → (d.device strict).insert x.action =
      .error (.duplicateAction (.text d.name) (.text x.name))) ∧
    (x.name ∉ d.names → (d.device strict).insert x.action =
      .ok ((d.append [x]).device strict)) := by
  have hfind : (d.device strict).find? x.action.name =
      .ok ((d.device strict).actions.find? (·.name.same (.text x.name))) := rfl
  have hopen : ¬ (d.device strict).isSealed = true := Bool.false_ne_true
  have hactions : ((d.append [x]).device strict) =
      { d.device strict with actions := (d.device strict).actions ++ [x.action] } := by
    simp [device, append]
  rw [← taken_texts_iff, ← names_device d strict, Device.names, taken_map_iff, hactions,
    Device.insert, if_neg hopen, Device.contains, hfind]
  cases (d.device strict).actions.find? (·.name.same (.text x.name)) with
  | some y => exact ⟨fun _ => rfl, fun h => absurd rfl h⟩
  | none => exact ⟨fun h => absurd h Bool.false_ne_true, fun _ => rfl⟩

end DeviceEntry

namespace Catalog

/-- The catalog with more devices. -/
def append (c : Catalog) (ds : List DeviceEntry) : Catalog := { c with devices := c.devices ++ ds }

theorem append_append (c : Catalog) (ds es : List DeviceEntry) :
    (c.append ds).append es = c.append (ds ++ es) :=
  congrArg (fun ds => { c with devices := ds }) (List.append_assoc _ _ _)

theorem names_airframeOf (c : Catalog) (strict : Bool) :
    (c.airframeOf strict).names = (c.devices.map DeviceEntry.name).map .text := by
  rw [Airframe.names, airframeOf, List.map_map, List.map_map]
  rfl

/-- A device is registered unless its name is taken. -/
theorem register_device (c : Catalog) (d : DeviceEntry) (strict : Bool) (j : Log.Journal) :
    (d.name ∈ c.devices.map DeviceEntry.name →
      ((c.airframeOf strict).register (d.device strict)).run j =
        (.error (.duplicateDevice (.text c.airframe) (.text d.name)), j)) ∧
    (d.name ∉ c.devices.map DeviceEntry.name →
      ∃ j', ((c.airframeOf strict).register (d.device strict)).run j =
        (.ok ((c.append [d]).airframeOf strict), j')) := by
  have hfind : (c.airframeOf strict).find? (d.device strict).name =
      .ok ((c.airframeOf strict).devices.find? (·.name.same (.text d.name))) := rfl
  have hdevices : ((c.append [d]).airframeOf strict) = { c.airframeOf strict with
      devices := (c.airframeOf strict).devices ++ [(d.device strict).sealUp] } := by
    simp [airframeOf, append]
  rw [← taken_texts_iff, ← names_airframeOf c strict, Airframe.names, taken_map_iff, hdevices,
    Airframe.register, run_liftM_bind, Airframe.contains, hfind]
  cases (c.airframeOf strict).devices.find? (·.name.same (.text d.name)) with
  | some e => exact ⟨fun _ => rfl, fun h => absurd rfl h⟩
  | none => exact ⟨fun h => absurd h Bool.false_ne_true, fun _ => ⟨_, rfl⟩⟩

end Catalog

/-! ## Reading -/

namespace Airframe

theorem ok_bind {α β : Type} (x : α) (f : α → Except Fault β) : (Except.ok x >>= f) = f x := rfl

theorem fields_object (es : Entries) : fields (.object es) = .ok es := rfl

theorem member_eq {es : Entries} {key : String} {v : Value} (h : es.get? key = some v) :
    member es key = .ok v := by
  rw [member, h]

theorem getD_eq (es : Entries) (key : String) (v : Value) :
    es.getD key v = (es.get? key).getD v := rfl

variable {v : Value} {d : DeviceEntry} {x : ActionEntry} {strict : Bool} {items : List Value}

theorem actionOf_entry (h : x.Describes v) : actionOf v = .ok x.action := by
  obtain ⟨es, rfl, hname, hcode, hdelay, hdown, hup⟩ := h
  have hdelay' : (es.getD "delay" (.int 0)).toInt = .ok (x.delay.getD 0) := by
    rw [getD_eq, hdelay]
    cases x.delay <;> rfl
  rw [ActionEntry.action, ← hdown, ← hup]
  simp only [actionOf, fields_object, member_eq hcode, member_eq hname, Value.toInt_int, hdelay',
    ok_bind]
  rfl

theorem actions_cons (h : x.Describes v) (d : Device) (items : List Value) :
    (v :: items).foldlM (fun d v => do d.insert (← actionOf v)) d =
      d.insert x.action >>= fun d => items.foldlM (fun d v => do d.insert (← actionOf v)) d := by
  rw [List.foldlM_cons, actionOf_entry h, ok_bind]

/-- Actions with distinct names are all added. -/
theorem actions_distinct {xs : List ActionEntry} (h : List.Forall₂ ActionEntry.Describes xs items)
    (hnodup : (d.append xs).names.Nodup) :
    items.foldlM (fun d v => do d.insert (← actionOf v)) (d.device strict) =
      .ok ((d.append xs).device strict) := by
  induction h generalizing d with
  | nil =>
      rw [DeviceEntry.append, List.append_nil]
      rfl
  | @cons x v xs items hv _ ih =>
      have happend : (d.append [x]).append xs = d.append (x :: xs) := d.append_append [x] xs
      have hfree : x.name ∉ d.names := by
        rw [DeviceEntry.names_append] at hnodup
        exact fun hx => (List.nodup_append.mp hnodup).2.2 _ hx _ List.mem_cons_self rfl
      rw [← happend] at hnodup
      rw [actions_cons hv, (d.insert_action x strict).2 hfree, ok_bind, ih hnodup, happend]

/-- The first action that has the name of an earlier one is refused. -/
theorem actions_repeated {n : String} (hd : d.actions = []) {xs : List ActionEntry}
    (h : List.Forall₂ ActionEntry.Describes xs items)
    (hn : FirstRepeated (xs.map ActionEntry.name) n) :
    items.foldlM (fun d v => do d.insert (← actionOf v)) (d.device strict) =
      .error (.duplicateAction (.text d.name) (.text n)) := by
  obtain ⟨names, rest, hnames, hnodup, hmem⟩ := hn
  obtain ⟨before, after, rfl, rfl, hafter⟩ := List.map_eq_append_iff.mp hnames
  obtain ⟨x, after, rfl, rfl, -⟩ := List.map_eq_cons_iff.mp hafter
  obtain ⟨us, _, rfl, hus, _ | ⟨hv, -⟩⟩ := exists_append_of_forall₂ h
  have hbefore : (d.append before).names = before.map ActionEntry.name := by
    rw [DeviceEntry.names_append, DeviceEntry.names, hd]
    rfl
  rw [← hbefore] at hnodup hmem
  rw [List.foldlM_append, actions_distinct hus hnodup, ok_bind, actions_cons hv,
    ((d.append before).insert_action x strict).1 hmem]
  rfl

/-- A device is read unless the name of an action repeats an earlier one. -/
theorem deviceOf_entry (h : d.Describes v) (strict : Bool) :
    (d.names.Nodup → deviceOf strict v = .ok (d.device strict)) ∧
    (∀ n, FirstRepeated d.names n →
      deviceOf strict v = .error (.duplicateAction (.text d.name) (.text n))) := by
  obtain ⟨es, items, rfl, hname, hid, hactions, hitems⟩ := h
  have hread : deviceOf strict (.object es) =
      items.foldlM (fun d v => do d.insert (← actionOf v))
        (DeviceEntry.device { d with actions := [] } strict) := by
    simp only [deviceOf, fields_object, member_eq hid, member_eq hname, Value.toInt_int, hactions,
      Value.items, ok_bind]
    rfl
  rw [hread]
  refine ⟨fun hnodup => ?_, fun n hn => actions_repeated rfl hitems hn⟩
  exact actions_distinct hitems hnodup

/-! ## Reading catalogs -/

variable {c : Catalog} {j : Log.Journal}

open DeviceEntry (Settled)

/-- Reads devices one after another and registers them. -/
def readAll (strict : Bool) (a : Airframe) (items : List Value) : Op Log.Journal Airframe :=
  items.foldlM (fun (a : Airframe) v => do a.register (← deviceOf strict v)) a

theorem readAll_cons (a : Airframe) (v : Value) (items : List Value) :
    readAll strict a (v :: items) =
      (liftM (deviceOf strict v) >>= a.register) >>= fun a => readAll strict a items :=
  List.foldlM_cons

theorem readAll_append (a : Airframe) (us vs : List Value) :
    readAll strict a (us ++ vs) = readAll strict a us >>= fun a => readAll strict a vs :=
  List.foldlM_append

/-- Settled devices are all registered. -/
theorem readAll_settled {ds : List DeviceEntry} (h : List.Forall₂ DeviceEntry.Describes ds items)
    (hsettled : Settled (c.append ds).devices) (strict : Bool) (j : Log.Journal) :
    ∃ j', (readAll strict (c.airframeOf strict) items).run j =
      (.ok ((c.append ds).airframeOf strict), j') := by
  induction h generalizing c j with
  | nil => exact ⟨j, by rw [Catalog.append, List.append_nil]; rfl⟩
  | @cons d v ds items hv _ ih =>
      have happend : (c.append [d]).append ds = c.append (d :: ds) := c.append_append [d] ds
      have hfree : d.name ∉ c.devices.map DeviceEntry.name := by
        have hnames := hsettled.names
        rw [Catalog.append, List.map_append] at hnames
        exact fun hd => (List.nodup_append.mp hnames).2.2 _ hd _ List.mem_cons_self rfl
      have hd : d.names.Nodup :=
        hsettled.actions d (List.mem_append_right _ List.mem_cons_self)
      obtain ⟨j₁, hregister⟩ := (c.register_device d strict j).2 hfree
      rw [← happend] at hsettled
      obtain ⟨j₂, hrest⟩ := ih hsettled j₁
      refine ⟨j₂, ?_⟩
      rw [readAll_cons, (deviceOf_entry hv strict).1 hd, ← happend, ← hrest]
      exact run_bind_ok hregister

/-- Reading ends at the first duplicate. -/
theorem readAll_firstDuplicate (h : List.Forall₂ DeviceEntry.Describes c.devices items)
    {f : Fault} (hf : c.FirstDuplicate f) (strict : Bool) (j : Log.Journal) :
    ∃ j', (readAll strict (Catalog.airframeOf { c with devices := [] } strict) items).run j =
      (.error f, j') := by
  obtain ⟨before, d, after, hc, hbefore, hd⟩ : ∃ before d after, c.devices = before ++ d :: after ∧
      Settled before ∧ ∀ v, d.Describes v → ∀ k,
        ((liftM (deviceOf strict v) >>=
          (Catalog.airframeOf { c with devices := before } strict).register :
            Op Log.Journal Airframe).run k) = (.error f, k) := by
    cases hf with
    | @action before after d n hc hbefore hn =>
        refine ⟨before, d, after, hc, hbefore, fun v hv k => ?_⟩
        rw [(deviceOf_entry hv strict).2 n hn]
        rfl
    | @device before after d hc hbefore hd hn =>
        refine ⟨before, d, after, hc, hbefore, fun v hv k => ?_⟩
        rw [(deviceOf_entry hv strict).1 hd]
        exact (Catalog.register_device { c with devices := before } d strict k).1 hn
  rw [hc] at h
  obtain ⟨us, _, rfl, hus, _ | ⟨hv, -⟩⟩ := exists_append_of_forall₂ h
  obtain ⟨k, hrun⟩ := readAll_settled (c := { c with devices := [] }) hus hbefore strict j
  refine ⟨k, ?_⟩
  rw [readAll_append, run_bind_ok hrun, readAll_cons]
  exact run_bind_error (hd _ hv k)

/-- A reading of a catalog reads its devices. -/
theorem ofCatalog_entry {data : Value} (h : c.Describes data) (strict : Bool) :
    ∃ items, List.Forall₂ DeviceEntry.Describes c.devices items ∧
      ∀ j r j', (readAll strict (Catalog.airframeOf { c with devices := [] } strict) items).run j =
        (r, j') → ∃ j'', (ofCatalog data strict).run j = (r, j'') := by
  obtain ⟨es, items, rfl, hname, hdevices, hitems⟩ := h
  refine ⟨items, hitems, fun j r j' hrun => ?_⟩
  have hread : ofCatalog (.object es) strict =
      readAll strict (Catalog.airframeOf { c with devices := [] } strict) items >>= fun a => do
        Log.say .airframe .info s!"Loaded {a.devices.length} devices for airframe {c.airframe}"
        return a := by
    simp only [ofCatalog, hname, hdevices, Value.items]
    rfl
  rw [hread]
  cases r with
  | ok a => exact ⟨_, run_bind_ok hrun⟩
  | error e => exact ⟨j', run_bind_error hrun⟩

/-! ## Look-ups -/

/-- A device of a settled catalog is found under its name. -/
theorem device_airframeOf (hc : Settled c.devices) (hd : d ∈ c.devices) (strict : Bool) :
    (c.airframeOf strict).device (.text d.name) = .ok (d.device strict).sealUp := by
  have hdistinct : Distinct (c.airframeOf strict).names := by
    rw [Catalog.names_airframeOf, distinct_texts_iff]
    exact hc.names
  have hmem : (d.device strict).sealUp ∈ (c.airframeOf strict).devices :=
    List.mem_map_of_mem (f := fun d : DeviceEntry => (d.device strict).sealUp) hd
  have hfind : (c.airframeOf strict).find? (.text d.name) =
      .ok ((c.airframeOf strict).devices.find? (·.name.same (.text d.name))) := rfl
  rw [device, hfind, hdistinct.find?_eq hmem rfl]
  rfl

/-- An action of a settled catalog is found under its name. -/
theorem lookup_entry (hd : d.names.Nodup) (hx : x ∈ d.actions) (strict : Bool)
    (j : Log.Journal) :
    ((d.device strict).sealUp.lookup (.text x.name)).run j = (.ok (some x.action), j) := by
  have hdistinct : Distinct (d.device strict).sealUp.names :=
    (d.names_device strict ▸ distinct_texts_iff.mpr hd : Distinct (d.device strict).names)
  exact Device.run_lookup_own hdistinct (List.mem_map_of_mem hx) ⟨x.name, rfl⟩ j

/-- A catalog is read to the airframe that it describes, where everything is found under its
name, or to the fault of its first duplicate. -/
theorem ofCatalog_reproduces (c : Catalog) (strict : Bool) {data : Value} (h : c.Describes data)
    (j : Log.Journal) :
    (Settled c.devices →
      (∃ j', (ofCatalog data strict).run j = (.ok (c.airframeOf strict), j')) ∧
      ∀ d ∈ c.devices,
        (c.airframeOf strict).device (.text d.name) = .ok (d.device strict).sealUp ∧
        ∀ x ∈ d.actions, ∀ k,
          ((d.device strict).sealUp.lookup (.text x.name)).run k = (.ok (some x.action), k)) ∧
    (¬ Settled c.devices → ∃ f j', c.FirstDuplicate f ∧
      (ofCatalog data strict).run j = (.error f, j')) ∧
    (∀ f, c.FirstDuplicate f → ∃ j', (ofCatalog data strict).run j = (.error f, j')) := by
  obtain ⟨items, hitems, hread⟩ := ofCatalog_entry h strict
  have hfirst : ∀ f, c.FirstDuplicate f →
      ∃ j', (ofCatalog data strict).run j = (.error f, j') := by
    intro f hf
    obtain ⟨j', hrun⟩ := readAll_firstDuplicate hitems hf strict j
    exact hread _ _ _ hrun
  refine ⟨fun hc => ⟨?_, fun d hd => ⟨device_airframeOf hc hd strict, fun x hx k => ?_⟩⟩,
    fun hc => ?_, hfirst⟩
  · obtain ⟨j', hrun⟩ := readAll_settled (c := { c with devices := [] }) hitems hc strict j
    exact hread _ _ _ hrun
  · exact lookup_entry (hc.actions d hd) hx strict k
  · obtain ⟨before, d, after, hdevices, hbefore, ⟨n, hn⟩ | ⟨hactions, hn⟩⟩ :=
      (DeviceEntry.settled_or_first c.devices).resolve_left hc
    · have hf := Catalog.FirstDuplicate.action hdevices hbefore hn
      obtain ⟨j', hrun⟩ := hfirst _ hf
      exact ⟨_, j', hf, hrun⟩
    · have hf := Catalog.FirstDuplicate.device hdevices hbefore hactions hn
      obtain ⟨j', hrun⟩ := hfirst _ hf
      exact ⟨_, j', hf, hrun⟩

/-- A catalog with two devices, of which the second has a name of its own. -/
def pairCatalog (second : String) (actions : List ActionEntry) : Catalog :=
  { airframe := "F-16C"
    devices := [
      { name := "UFC", id := 17, actions := [
        { name := "1", code := 3001, up := some (.float (.ofRatio true 1 2)) },
        { name := "ENTR", code := 3016, delay := some 50 }] },
      { name := second, id := 12, actions }] }

/-- Plain data with two devices, in another order and with a key that nobody reads. -/
def pairData (second : String) (actions : List Value) : Value :=
  .object [
    ("devices", .list [
      .object [("id", .int 17), ("name", .text "UFC"), ("actions", .list [
        .object [("code", .int 3001), ("name", .text "1"), ("up", .float (.ofRatio true 1 2))],
        .object [("name", .text "ENTR"), ("code", .int 3016), ("delay", .int 50)]])],
      .object [("name", .text second), ("id", .int 12), ("actions", .list actions)]]),
    ("version", .null), ("airframe", .text "F-16C")]

/-- Two actions of one name. -/
def sameActions : List ActionEntry := [{ name := "A", code := 1 }, { name := "A", code := 2 }]

/-- Plain data with two actions of one name. -/
def sameData : List Value :=
  [.object [("name", .text "A"), ("code", .int 1)], .object [("name", .text "A"), ("code", .int 2)]]

theorem describes_pair {second : String} {actions : List ActionEntry} {items : List Value}
    (h : List.Forall₂ ActionEntry.Describes actions items) :
    (pairCatalog second actions).Describes (pairData second items) := by
  refine ⟨_, _, rfl, rfl, rfl, .cons ?_ (.cons ?_ .nil)⟩
  · exact ⟨_, _, rfl, rfl, rfl, rfl,
      .cons ⟨_, rfl, rfl, rfl, rfl, rfl, rfl⟩ (.cons ⟨_, rfl, rfl, rfl, rfl, rfl, rfl⟩ .nil)⟩
  · exact ⟨_, _, rfl, rfl, rfl, rfl, h⟩

theorem ofCatalog_reproduces_pair :
    (∃ j, (ofCatalog (pairData "MISC" []) true).run {} =
      (.ok ((pairCatalog "MISC" []).airframeOf true), j)) ∧
    -- The actions of a device are read before its own name.
    ∃ j, (ofCatalog (pairData "UFC" sameData)).run {} =
      (.error (.duplicateAction (.text "UFC") (.text "A")), j) := by
  constructor
  · have hdescribes : (pairCatalog "MISC" []).Describes (pairData "MISC" []) := describes_pair .nil
    have hsettled : Settled (pairCatalog "MISC" []).devices := ⟨by decide, by decide⟩
    exact ((ofCatalog_reproduces _ true hdescribes {}).1 hsettled).1
  · have hdescribes : (pairCatalog "UFC" sameActions).Describes (pairData "UFC" sameData) :=
      describes_pair
        (.cons ⟨_, rfl, rfl, rfl, rfl, rfl, rfl⟩ (.cons ⟨_, rfl, rfl, rfl, rfl, rfl, rfl⟩ .nil))
    have hdevices : (pairCatalog "UFC" sameActions).devices =
        (pairCatalog "UFC" sameActions).devices.take 1 ++ [⟨"UFC", 12, sameActions⟩] := rfl
    refine (ofCatalog_reproduces _ false hdescribes {}).2.2 _ (.action hdevices ?_ ?_)
    · exact ⟨by decide, by decide⟩
    · exact ⟨["A"], [], rfl, by decide, by decide⟩

end Airframe

end Cockpit
