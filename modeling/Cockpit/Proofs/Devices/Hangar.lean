import Cockpit.Airframe
import Cockpit.Proofs.Op.Outcome
import Mathlib.Logic.Function.Basic

/-!
# Devices that airframes share

A device may be offered to several airframes, or twice to one, and it can be given actions
and be sealed in between.  So here devices and airframes are known by their places in a
`Hangar`, and an airframe remembers the places of the devices that it registered.  What the
calls do is what `Device.insert`, `Device.sealUp` and `Airframe.register` do.

`Hangar.Act.run_cases` says what one call can do: it is refused and does nothing, or it was not
to be refused and does what `Hangar.Does` says.  From this come the two facts that carry the
rest.  `Hangar.Sound` is what holds between calls: names are distinct and what is registered is
sealed.  `Hangar.Leads` is what calls leave behind, and that they leave a sealed device alone.

`Hangar.catalogs_settle` says this of all runs of calls.
-/

namespace Cockpit

open Op

/-! ## Look-ups in order -/

theorem Value.same_text_iff {v : Value} {s : String} : v.same (.text s) = true ↔ v = .text s := by
  cases v with
  | text t => simp [Value.same]
  | null => simp [Value.same, Value.sameNumber, Value.wholeNumber?]
  | bool b => simp [Value.same, Value.sameNumber, Value.wholeNumber?]
  | int n => simp [Value.same, Value.sameNumber, Value.wholeNumber?]
  | float x => simp [Value.same, Value.sameNumber, Value.wholeNumber?]
  | list xs => simp [Value.same, Value.sameNumber, Value.wholeNumber?]
  | object es => simp [Value.same, Value.sameNumber, Value.wholeNumber?]

/-- Whether no later name is the same as an earlier one. -/
def Distinct (names : List Value) : Prop := names.Pairwise fun m n => m.same n = false

/-- Whether a name is the same as one of some others. -/
def Taken (names : List Value) (n : Value) : Prop := ∃ m ∈ names, m.same n = true

theorem Distinct.concat {names : List Value} {n : Value} (h : Distinct names)
    (hn : ¬ Taken names n) : Distinct (names ++ [n]) := by
  refine List.pairwise_append.mpr ⟨h, List.pairwise_singleton _ _, ?_⟩
  intro m hm n' hn'
  obtain rfl := List.mem_singleton.mp hn'
  exact Bool.eq_false_iff.mpr fun hs => hn ⟨m, hm, hs⟩

/-- Whether a name is taken is told by looking for it. -/
theorem taken_map_iff {α : Type} (name : α → Value) (xs : List α) (n : Value) :
    Taken (xs.map name) n ↔ (xs.find? fun x => (name x).same n).isSome = true := by
  rw [List.find?_isSome]
  constructor
  · rintro ⟨m, hm, hs⟩
    obtain ⟨x, hx, rfl⟩ := List.mem_map.mp hm
    exact ⟨x, hx, hs⟩
  · rintro ⟨x, hx, hs⟩
    exact ⟨name x, List.mem_map_of_mem hx, hs⟩

/-- Among things with distinct names, one whose name is a text is found under it. -/
theorem Distinct.find?_eq {α : Type} {name : α → Value} {xs : List α} {x : α} {s : String}
    (h : Distinct (xs.map name)) (hx : x ∈ xs) (hs : name x = .text s) :
    xs.find? (fun y => (name y).same (.text s)) = some x := by
  induction xs with
  | nil => cases hx
  | cons y xs ih =>
      obtain ⟨hy, hxs⟩ := List.pairwise_cons.mp h
      rcases List.mem_cons.mp hx with rfl | hx
      · exact List.find?_cons_of_pos (Value.same_text_iff.mpr hs)
      · have hne : ¬ (name y).same (.text s) = true := by
          rw [← hs, hy (name x) (List.mem_map_of_mem hx)]
          exact Bool.false_ne_true
        exact (List.find?_cons_of_neg (p := fun y => (name y).same (.text s)) hne).trans (ih hxs hx)

namespace Device

variable {d : Device} {v : Value}

theorem find?_eq (d : Device) (hv : v.isName = true) :
    d.find? v = .ok (d.actions.find? (·.name.same v)) := by
  rw [find?, if_pos hv]

/-- Whether a device takes no action of a name. -/
def Refuses (d : Device) (name : Value) : Prop :=
  d.isSealed = true ∨ name.isName = false ∨ Taken d.names name

/-- An action is added unless it is refused. -/
theorem insert_cases (d : Device) (a : Action) :
    (d.Refuses a.name ∧ ∃ f, d.insert a = .error f) ∨
      (¬ d.Refuses a.name ∧ d.insert a = .ok { d with actions := d.actions ++ [a] }) := by
  rw [Refuses, names, taken_map_iff, insert, contains, find?]
  cases d.isSealed with
  | true => exact Or.inl ⟨Or.inl rfl, _, rfl⟩
  | false =>
      cases a.name.isName with
      | false => exact Or.inl ⟨Or.inr (Or.inl rfl), _, rfl⟩
      | true =>
          cases d.actions.find? (·.name.same a.name) with
          | some b => exact Or.inl ⟨Or.inr (Or.inr rfl), _, rfl⟩
          | none => exact Or.inr ⟨by simp, rfl⟩

end Device

namespace Airframe

/-- Whether an airframe takes no device of a name. -/
def Refuses (a : Airframe) (name : Value) : Prop := name.isName = false ∨ Taken a.names name

/-- A device is registered unless it is refused, and then nothing happens. -/
theorem register_cases (a : Airframe) (d : Device) (j : Log.Journal) :
    (a.Refuses d.name ∧ ∃ f, (a.register d).run j = (.error f, j)) ∨
      (¬ a.Refuses d.name ∧
        ∃ j', (a.register d).run j = (.ok { a with devices := a.devices ++ [d.sealUp] }, j')) := by
  rw [Refuses, names, taken_map_iff, register, run_liftM_bind, contains, find?]
  cases d.name.isName with
  | false => exact Or.inl ⟨Or.inl rfl, _, rfl⟩
  | true =>
      cases a.devices.find? (·.name.same d.name) with
      | some b => exact Or.inl ⟨Or.inr rfl, _, rfl⟩
      | none => exact Or.inr ⟨by simp, _, rfl⟩

end Airframe

/-! ## Hangars -/

/-- Devices and airframes by their places. -/
structure Hangar where
  device : Nat → Device
  airframeName : Nat → Value
  /-- The places of the devices that an airframe has registered, in order. -/
  members : Nat → List Nat
  journal : Log.Journal := {}

namespace Hangar

/-- The airframe at a place, with its devices as they are now. -/
def airframe (h : Hangar) (r : Nat) : Airframe :=
  { name := h.airframeName r, devices := (h.members r).map h.device }

def journalPart : Op.Part Hangar Log.Journal where
  get h := h.journal
  set j h := { h with journal := j }

/-- The hangar with another device at a place. -/
def setDevice (d : Nat) (x : Device) (h : Hangar) : Hangar :=
  { h with device := Function.update h.device d x }

/-- The hangar with one more device that an airframe has registered. -/
def enlist (r d : Nat) (h : Hangar) : Hangar :=
  { h with members := Function.update h.members r (h.members r ++ [d]) }

/-! ### Calls -/

/-- Adds an action to a device. -/
def addAction (d : Nat) (a : Action) : Op Hangar Unit := do
  let x ← ((← .state).device d).insert a
  .update (setDevice d x)

/-- Seals a device. -/
def sealUp (d : Nat) : Op Hangar Unit := .update fun h => h.setDevice d (h.device d).sealUp

/-- Registers a device with an airframe, which seals it. -/
def register (r d : Nat) : Op Hangar Unit := do
  let h ← .state
  let _ ← ((h.airframe r).register (h.device d)).on journalPart
  sealUp d
  .update (enlist r d)

/-- A call on a device or an airframe. -/
inductive Act where
  | addAction (device : Nat) (action : Action)
  | sealUp (device : Nat)
  | register (airframe device : Nat)

def Act.run : Act → Op Hangar Unit
  | .addAction d a => Hangar.addAction d a
  | .sealUp d => Hangar.sealUp d
  | .register r d => Hangar.register r d

/-- The hangar after calls one after another, whatever comes of them. -/
def after (h : Hangar) : List Act → Hangar
  | [] => h
  | a :: as => (a.run.run h).2.after as

/-- The calls that succeed, in order. -/
def done (h : Hangar) : List Act → List Act
  | [] => []
  | a :: as =>
    match a.run.run h with
    | (.ok _, h) => a :: h.done as
    | (.error _, h) => h.done as

/-- A hangar of devices without actions and of airframes without devices. -/
structure New (h : Hangar) : Prop where
  actions : ∀ d, (h.device d).actions = []
  isOpen : ∀ d, (h.device d).isSealed = false
  members : ∀ r, h.members r = []

/-! ### What a call does -/

/-- Whether a call is refused. -/
def Act.Refused (h : Hangar) : Act → Prop
  | .addAction d a => (h.device d).Refuses a.name
  | .sealUp _ => False
  | .register r d => (h.airframe r).Refuses (h.device d).name

/-- What a call does that is not refused. -/
inductive Does (h : Hangar) : Act → Hangar → Prop where
  | addAction {d : Nat} {a : Action} (hfree : ¬ (h.device d).Refuses a.name) :
      Does h (.addAction d a)
        (h.setDevice d { h.device d with actions := (h.device d).actions ++ [a] })
  | sealUp {d : Nat} : Does h (.sealUp d) (h.setDevice d (h.device d).sealUp)
  | register {r d : Nat} {j : Log.Journal} (hfree : ¬ (h.airframe r).Refuses (h.device d).name) :
      Does h (.register r d)
        { (h.setDevice d (h.device d).sealUp).enlist r d with journal := j }

/-- A device is registered, and sealed, if its airframe takes it. -/
theorem run_register_cases (r d : Nat) (h : Hangar) :
    ((h.airframe r).Refuses (h.device d).name ∧
      ∃ f, ((h.airframe r).register (h.device d)).run h.journal = (.error f, h.journal) ∧
        (register r d).run h = (.error f, h)) ∨
    (¬ (h.airframe r).Refuses (h.device d).name ∧
      ∃ j, ((h.airframe r).register (h.device d)).run h.journal = (.ok { h.airframe r with
          devices := (h.airframe r).devices ++ [(h.device d).sealUp] }, j) ∧
        (register r d).run h =
          (.ok (), { (h.setDevice d (h.device d).sealUp).enlist r d with journal := j })) := by
  have hon : (((h.airframe r).register (h.device d)).on journalPart).run h =
      (((h.airframe r).register (h.device d)).run h.journal).map id
        fun j => { h with journal := j } := rfl
  rw [register, run_state_bind]
  rcases (h.airframe r).register_cases (h.device d) h.journal with ⟨hbad, f, hr⟩ | ⟨hfree, j, hr⟩
  · rw [hr] at hon
    exact Or.inl ⟨hbad, f, hr, run_bind_error hon⟩
  · rw [hr] at hon
    rw [run_bind_ok hon]
    exact Or.inr ⟨hfree, j, hr, rfl⟩

/-- A call is refused and does nothing, or it succeeds. -/
theorem Act.run_cases (a : Act) (h : Hangar) :
    (a.Refused h ∧ ∃ f, a.run.run h = (.error f, h)) ∨
      (¬ a.Refused h ∧ ∃ h', a.run.run h = (.ok (), h') ∧ Does h a h') := by
  cases a with
  | addAction d a =>
      rw [Act.run, Hangar.addAction, run_state_bind, run_liftM_bind]
      rcases (h.device d).insert_cases a with ⟨hbad, f, hi⟩ | ⟨hfree, hi⟩
      · rw [hi]
        exact Or.inl ⟨hbad, f, rfl⟩
      · rw [hi]
        exact Or.inr ⟨hfree, _, rfl, .addAction hfree⟩
  | sealUp d => exact Or.inr ⟨id, _, rfl, .sealUp⟩
  | register r d =>
      rcases run_register_cases r d h with ⟨hbad, f, -, hr⟩ | ⟨hfree, j, -, hr⟩
      · exact Or.inl ⟨hbad, f, hr⟩
      · exact Or.inr ⟨hfree, _, hr, .register hfree⟩

/-- A call fails exactly if it is refused, and then it does nothing. -/
theorem Act.run_error_iff (a : Act) (h : Hangar) :
    ((∃ f, (a.run.run h).1 = .error f) ↔ a.Refused h) ∧
      (a.Refused h → (a.run.run h).2 = h) := by
  rcases a.run_cases h with ⟨hbad, f, hr⟩ | ⟨hfree, h', hr, -⟩
  · rw [hr]
    exact ⟨⟨fun _ => hbad, fun _ => ⟨f, rfl⟩⟩, fun _ => rfl⟩
  · rw [hr]
    exact ⟨⟨nofun, fun hbad => absurd hbad hfree⟩, fun hbad => absurd hbad hfree⟩

/-! ### What calls leave -/

namespace Act

/-- The action that a call adds to a device. -/
def added (d : Nat) : Act → Option Action
  | .addAction e a => if e = d then some a else none
  | _ => none

/-- The device that a call registers with an airframe. -/
def enlisted (r : Nat) : Act → Option Nat
  | .register q d => if q = r then some d else none
  | _ => none

/-- Whether a call seals a device. -/
def isSealing (d : Nat) : Act → Bool
  | .addAction _ _ => false
  | .sealUp e => e == d
  | .register _ e => e == d

theorem filterMap_added (d e : Nat) (x : Action) :
    [addAction d x].filterMap (added e) = if d = e then [x] else [] := by
  by_cases h : d = e <;> simp [added, h]

theorem filterMap_enlisted (r d q : Nat) :
    [register r d].filterMap (enlisted q) = if r = q then [d] else [] := by
  by_cases h : r = q <;> simp [enlisted, h]

/-- A device that is registered is sealed. -/
theorem any_isSealing_of_enlisted {as : List Act} {r d : Nat} (h : d ∈ as.filterMap (enlisted r)) :
    as.any (isSealing d) = true := by
  obtain ⟨a, ha, hd⟩ := List.mem_filterMap.mp h
  refine List.any_eq_true.mpr ⟨a, ha, ?_⟩
  cases a with
  | addAction _ _ => cases hd
  | sealUp _ => cases hd
  | register q e =>
      rw [enlisted] at hd
      split at hd
      · cases hd
        exact beq_self_eq_true d
      · cases hd

end Act

/-- What calls that succeed leave behind, and what they leave alone. -/
structure Leads (h : Hangar) (as : List Act) (h' : Hangar) : Prop where
  names : ∀ d, (h'.device d).name = (h.device d).name
  airframeName : h'.airframeName = h.airframeName
  actions : ∀ d, (h'.device d).actions = (h.device d).actions ++ as.filterMap (Act.added d)
  members : ∀ r, h'.members r = h.members r ++ as.filterMap (Act.enlisted r)
  sealing : ∀ d, (h'.device d).isSealed = ((h.device d).isSealed || as.any (Act.isSealing d))
  frozen : ∀ d, (h.device d).isSealed = true → h'.device d = h.device d

variable {h h' h'' : Hangar} {a : Act} {as bs : List Act} {d r : Nat}

namespace Leads

theorem refl (h : Hangar) : Leads h [] h where
  names _ := rfl
  airframeName := rfl
  actions _ := (List.append_nil _).symm
  members _ := (List.append_nil _).symm
  sealing _ := (Bool.or_false _).symm
  frozen _ _ := rfl

theorem trans (hl : Leads h as h') (hr : Leads h' bs h'') : Leads h (as ++ bs) h'' where
  names d := (hr.names d).trans (hl.names d)
  airframeName := hr.airframeName.trans hl.airframeName
  actions d := by rw [hr.actions, hl.actions, List.filterMap_append, List.append_assoc]
  members r := by rw [hr.members, hl.members, List.filterMap_append, List.append_assoc]
  sealing d := by rw [hr.sealing, hl.sealing, List.any_append, Bool.or_assoc]
  frozen d hd := by
    have hd' := hl.frozen d hd
    rw [hr.frozen d (hd'.symm ▸ hd), hd']

end Leads

@[simp] theorem device_setDevice_self (d : Nat) (x : Device) (h : Hangar) :
    (h.setDevice d x).device d = x := Function.update_self _ _ _

theorem device_setDevice_of_ne {e d : Nat} (he : e ≠ d) (x : Device) (h : Hangar) :
    (h.setDevice d x).device e = h.device e := Function.update_of_ne he _ _

theorem device_setDevice_sealUp (d e : Nat) (h : Hangar) :
    (h.setDevice d (h.device d).sealUp).device e =
      { h.device e with isSealed := (h.device e).isSealed || d == e } := by
  by_cases he : e = d
  · subst he
    rw [device_setDevice_self, beq_self_eq_true, Bool.or_true]
    rfl
  · rw [device_setDevice_of_ne he, beq_eq_false_iff_ne.mpr (Ne.symm he), Bool.or_false]

theorem members_enlist (r d q : Nat) (h : Hangar) :
    (h.enlist r d).members q = h.members q ++ if r = q then [d] else [] := by
  by_cases hq : r = q
  · subst hq
    rw [if_pos rfl]
    exact Function.update_self _ _ _
  · rw [if_neg hq, List.append_nil]
    exact Function.update_of_ne (Ne.symm hq) _ _

theorem leads_addAction {x : Action} (hopen : (h.device d).isSealed = false) :
    Leads h [.addAction d x]
      (h.setDevice d { h.device d with actions := (h.device d).actions ++ [x] }) where
  names e := by
    by_cases he : e = d
    · rw [he, device_setDevice_self]
    · rw [device_setDevice_of_ne he]
  airframeName := rfl
  actions e := by
    by_cases he : e = d
    · rw [he, device_setDevice_self, Act.filterMap_added, if_pos rfl]
    · rw [device_setDevice_of_ne he, Act.filterMap_added, if_neg (Ne.symm he), List.append_nil]
  members _ := (List.append_nil _).symm
  sealing e := by
    by_cases he : e = d
    · rw [he, device_setDevice_self]
      exact (Bool.or_false _).symm
    · rw [device_setDevice_of_ne he]
      exact (Bool.or_false _).symm
  frozen e he := by
    refine device_setDevice_of_ne (fun hed => ?_) _ _
    rw [hed, hopen] at he
    cases he

theorem leads_sealUp (d : Nat) (h : Hangar) :
    Leads h [.sealUp d] (h.setDevice d (h.device d).sealUp) where
  names e := by rw [device_setDevice_sealUp]
  airframeName := rfl
  actions e := by
    rw [device_setDevice_sealUp]
    exact (List.append_nil _).symm
  members _ := (List.append_nil _).symm
  sealing e := by
    rw [device_setDevice_sealUp, List.any_cons, List.any_nil, Bool.or_false]
    rfl
  frozen e he := by rw [device_setDevice_sealUp, he, Bool.true_or, ← he]

/-- Registering is sealing and being remembered. -/
theorem leads_register (r d : Nat) (j : Log.Journal) (h : Hangar) :
    Leads h [.register r d]
      { (h.setDevice d (h.device d).sealUp).enlist r d with journal := j } where
  names := (leads_sealUp d h).names
  airframeName := rfl
  actions := (leads_sealUp d h).actions
  members q := by
    rw [Act.filterMap_enlisted]
    exact members_enlist r d q _
  sealing := (leads_sealUp d h).sealing
  frozen := (leads_sealUp d h).frozen

theorem Does.leads (hd : Does h a h') : Leads h [a] h' := by
  cases hd with
  | addAction hfree => exact leads_addAction (Bool.eq_false_iff.mpr fun hs => hfree (Or.inl hs))
  | sealUp => exact leads_sealUp _ h
  | register _ => exact leads_register _ _ _ h

/-- Calls one after another lead where those of them lead that succeed. -/
theorem after_leads : ∀ (as : List Act) (h : Hangar), Leads h (h.done as) (h.after as)
  | [], h => .refl h
  | a :: as, h => by
      rw [done, after]
      rcases a.run_cases h with ⟨-, f, hr⟩ | ⟨-, h', hr, hd⟩
      · rw [hr]
        exact after_leads as h
      · rw [hr]
        exact hd.leads.trans (after_leads as h')

/-! ### What holds between calls -/

/-- Names are distinct, and what is registered is sealed. -/
structure Sound (h : Hangar) : Prop where
  actions : ∀ d, Distinct (h.device d).names
  members : ∀ r, Distinct (h.airframe r).names
  sealing : ∀ r, ∀ d ∈ h.members r, (h.device d).isSealed = true

theorem New.sound (hn : h.New) : h.Sound where
  actions d := by
    rw [Device.names, hn.actions]
    exact .nil
  members r := by
    rw [Airframe.names, airframe, hn.members]
    exact .nil
  sealing r := by
    rw [hn.members]
    exact nofun

theorem names_airframe (h : Hangar) (r : Nat) :
    (h.airframe r).names = (h.members r).map fun d => (h.device d).name := by
  rw [Airframe.names, airframe, List.map_map]
  rfl

/-- What an airframe has given out never changes. -/
theorem Leads.devices (hl : Leads h as h') (hs : h.Sound) (r : Nat) :
    (h'.airframe r).devices =
      (h.airframe r).devices ++ (as.filterMap (Act.enlisted r)).map h'.device := by
  have hkept : (h.members r).map h'.device = (h.members r).map h.device :=
    List.map_congr_left fun d hd => hl.frozen d (hs.sealing r d hd)
  rw [airframe, airframe, hl.members, List.map_append, hkept]

/-- In a sound hangar a device is registered as it is with the airframe that the hangar holds. -/
theorem register_airframe (hs : h.Sound) (r d : Nat) :
    ((h.airframe r).register (h.device d)).run h.journal =
      let o := (register r d).run h
      (o.1.map fun _ => o.2.airframe r, o.2.journal) := by
  rcases run_register_cases r d h with ⟨-, f, hr, hrun⟩ | ⟨-, j, hr, hrun⟩
  · rw [hr, hrun]
    rfl
  · have hdevices := (leads_register r d j h).devices hs r
    have hdevice : (h.setDevice d (h.device d).sealUp).device d = (h.device d).sealUp :=
      device_setDevice_self _ _ _
    rw [Act.filterMap_enlisted, if_pos rfl, List.map_singleton] at hdevices
    rw [hr, hrun]
    refine congrArg (fun ds => (Except.ok { h.airframe r with devices := ds }, j)) ?_
    exact (congrArg (fun x => (h.airframe r).devices ++ [x]) hdevice).symm.trans hdevices.symm

theorem Does.sound (hd : Does h a h') (hs : h.Sound) : h'.Sound := by
  have hl := hd.leads
  refine ⟨fun e => ?_, fun q => ?_, fun q e he => ?_⟩
  · rw [Device.names, hl.actions, List.map_append]
    cases hd with
    | @addAction d x hfree =>
        rw [Act.filterMap_added]
        split
        · rename_i he
          subst he
          exact (hs.actions d).concat fun ht => hfree (Or.inr (Or.inr ht))
        · rw [List.map_nil, List.append_nil]
          exact hs.actions e
    | sealUp =>
        rw [List.filterMap_cons_none rfl, List.filterMap_nil, List.map_nil, List.append_nil]
        exact hs.actions e
    | register _ =>
        rw [List.filterMap_cons_none rfl, List.filterMap_nil, List.map_nil, List.append_nil]
        exact hs.actions e
  · rw [Airframe.names, hl.devices hs, List.map_append]
    cases hd with
    | addAction _ =>
        rw [List.filterMap_cons_none rfl, List.filterMap_nil, List.map_nil, List.map_nil,
          List.append_nil]
        exact hs.members q
    | sealUp =>
        rw [List.filterMap_cons_none rfl, List.filterMap_nil, List.map_nil, List.map_nil,
          List.append_nil]
        exact hs.members q
    | @register r d _ hfree =>
        rw [Act.filterMap_enlisted]
        split
        · rename_i hr
          subst hr
          rw [List.map_singleton, List.map_singleton, hl.names]
          exact (hs.members r).concat fun ht => hfree (Or.inr ht)
        · rw [List.map_nil, List.map_nil, List.append_nil]
          exact hs.members q
  · rw [hl.members] at he
    rw [hl.sealing]
    rcases List.mem_append.mp he with he | he
    · rw [hs.sealing q e he, Bool.true_or]
    · rw [Act.any_isSealing_of_enlisted he, Bool.or_true]

theorem after_sound : ∀ (as : List Act) {h : Hangar}, h.Sound → (h.after as).Sound
  | [], _, hs => hs
  | a :: as, h, hs => by
      rw [after]
      rcases a.run_cases h with ⟨-, f, hr⟩ | ⟨-, h', hr, hd⟩
      · rw [hr]
        exact after_sound as hs
      · rw [hr]
        exact after_sound as (hd.sound hs)

/-! ### Look-ups -/

/-- The device of a name is the first one that was registered under it. -/
theorem device_airframe (h : Hangar) (r : Nat) {v : Value} (hv : v.isName = true) :
    (h.airframe r).device v =
      match (h.members r).find? fun d => (h.device d).name.same v with
      | some d => .ok (h.device d)
      | none => .error (.unknownDevice (h.airframeName r) v) := by
  have hfind : (h.airframe r).find? v =
      .ok (((h.members r).find? fun d => (h.device d).name.same v).map h.device) := by
    rw [Airframe.find?, if_pos hv, airframe, List.find?_map]
    rfl
  rw [Airframe.device, hfind]
  cases (h.members r).find? fun d => (h.device d).name.same v with
  | none => rfl
  | some d => rfl

/-- An action that is found stays found. -/
theorem Leads.find?_action (hl : Leads h as h') {v : Value} {x : Action}
    (hx : (h.device d).find? v = .ok (some x)) : (h'.device d).find? v = .ok (some x) := by
  rw [Device.find?] at hx ⊢
  split at hx
  · rename_i hv
    rw [if_pos hv, hl.actions]
    exact congrArg _ ((List.prefix_append _ _).find?_eq_some (Except.ok.inj hx))
  · cases hx

/-- A device that is found stays found, and stays what it is. -/
theorem Leads.device_airframe (hl : Leads h as h') (hs : h.Sound) {v : Value} {x : Device}
    (hx : (h.airframe r).device v = .ok x) : (h'.airframe r).device v = .ok x := by
  rw [Airframe.device, Airframe.find?] at hx ⊢
  split at hx
  · rename_i hv
    rw [if_pos hv, hl.devices hs]
    cases hf : (h.airframe r).devices.find? (·.name.same v) with
    | none =>
        rw [hf] at hx
        cases hx
    | some d =>
        rw [hf] at hx
        rw [(List.prefix_append _ _).find?_eq_some hf]
        exact hx
  · cases hx

/-! ### Runs -/

/-- In every run of calls on devices without actions and airframes without devices, whichever of
the calls fail:

* the actions of a device are those that calls added to it, in order, and their names are
  distinct, so a name stands for the action that was first added under it, and does so for ever,
* a device is sealed exactly if it was sealed or registered, and then it never changes again,
* an airframe has the devices that were registered with it, in order, their names are distinct
  and they are sealed, so a name stands for the device that was first registered under it, and
  does so for ever, and a name under which none was registered is unknown,
* a call fails exactly if a name is taken or can be none, or the device is sealed that is to be
  given an action, and then it changes nothing. -/
theorem catalogs_settle (h : Hangar) (hnew : h.New) (as later : List Act) :
    let cs := h.done as
    let z := h.after as
    let z' := z.after later
    (∀ d, (z.device d).actions = cs.filterMap (Act.added d) ∧ Distinct (z.device d).names ∧
      (∀ v, v.isName = true →
        (z.device d).find? v = .ok ((cs.filterMap (Act.added d)).find? (·.name.same v))) ∧
      (∀ x s, Act.addAction d x ∈ cs → x.name = .text s →
        (z.device d).find? (.text s) = .ok (some x)) ∧
      ∀ v x, (z.device d).find? v = .ok (some x) → (z'.device d).find? v = .ok (some x)) ∧
    (∀ d, ((z.device d).isSealed = true ↔ ∃ a ∈ cs, a.isSealing d = true) ∧
      ((z.device d).isSealed = true → z'.device d = z.device d)) ∧
    (∀ r, z.members r = cs.filterMap (Act.enlisted r) ∧ Distinct (z.airframe r).names ∧
      (∀ d ∈ z.members r, (z.device d).isSealed = true) ∧
      (∀ v, v.isName = true → (z.airframe r).device v =
        match (cs.filterMap (Act.enlisted r)).find? fun d => (h.device d).name.same v with
        | some d => .ok (z.device d)
        | none => .error (.unknownDevice (h.airframeName r) v)) ∧
      (∀ d s, Act.register r d ∈ cs → (h.device d).name = .text s →
        (z.airframe r).device (.text s) = .ok (z.device d)) ∧
      ∀ v x, (z.airframe r).device v = .ok x → (z'.airframe r).device v = .ok x) ∧
    ∀ a : Act, ((∃ f, (a.run.run z).1 = .error f) ↔ a.Refused z) ∧
      (a.Refused z → (a.run.run z).2 = z) := by
  intro cs z z'
  have hl : Leads h cs z := after_leads as h
  have hl' : Leads z (z.done later) z' := after_leads later z
  have hs : z.Sound := after_sound as hnew.sound
  have hactions (d : Nat) : (z.device d).actions = cs.filterMap (Act.added d) := by
    rw [hl.actions, hnew.actions, List.nil_append]
  have hmembers (r : Nat) : z.members r = cs.filterMap (Act.enlisted r) := by
    rw [hl.members, hnew.members, List.nil_append]
  have hdevice (r : Nat) (v : Value) (hv : v.isName = true) : (z.airframe r).device v =
      match (cs.filterMap (Act.enlisted r)).find? fun d => (h.device d).name.same v with
      | some d => .ok (z.device d)
      | none => .error (.unknownDevice (h.airframeName r) v) := by
    rw [device_airframe z r hv, hmembers, hl.airframeName]
    simp only [hl.names]
  refine ⟨fun d => ⟨hactions d, hs.actions d, fun v hv => ?_, fun x s hx hname => ?_,
      fun v x => hl'.find?_action⟩, fun d => ⟨?_, hl'.frozen d⟩,
    fun r => ⟨hmembers r, hs.members r, hs.sealing r, hdevice r, fun d s hd hname => ?_,
      fun v x => hl'.device_airframe hs⟩, fun a => a.run_error_iff z⟩
  · rw [Device.find?_eq _ hv, hactions]
  · have hmem : x ∈ (z.device d).actions := by
      rw [hactions]
      exact List.mem_filterMap.mpr ⟨_, hx, if_pos rfl⟩
    rw [Device.find?_eq _ rfl, (hs.actions d).find?_eq hmem hname]
  · rw [hl.sealing, hnew.isOpen, Bool.false_or]
    exact List.any_eq_true
  · have hmem : d ∈ z.members r := by
      rw [hmembers]
      exact List.mem_filterMap.mpr ⟨_, hd, if_pos rfl⟩
    have hnames := hs.members r
    rw [names_airframe] at hnames
    rw [device_airframe z r rfl, hnames.find?_eq hmem ((hl.names d).trans hname)]

/-- Devices of one name, and airframes of one name. -/
def twins : Hangar where
  device d := { id := .int d, name := .text "UFC" }
  airframeName _ := .text "F-16"
  members _ := []

/-- An action of the one name, by its code. -/
def enter (code : Int) : Action := { name := .text "ENTR", code := .int code }

/-- Calls on the twins.  One is given an action twice and offered to an airframe twice, then it is
to be given another action, and it is offered to another airframe.  The other one is offered in
vain to the first airframe, and is given an action. -/
def twinCalls : List Act :=
  [.addAction 0 (enter 3001), .addAction 0 (enter 3002), .register 0 0, .register 0 0,
    .addAction 0 { name := .text "CLR", code := .int 3003 }, .register 1 0, .register 0 1,
    .addAction 1 (enter 3004)]

theorem catalogs_settle_twins :
    twins.New ∧
    twins.done twinCalls =
      [.addAction 0 (enter 3001), .register 0 0, .register 1 0, .addAction 1 (enter 3004)] ∧
    ((twins.after twinCalls).device 0).find? (.text "ENTR") = .ok (some (enter 3001)) ∧
    ((twins.after twinCalls).device 0).isSealed = true ∧
    ((twins.after twinCalls).device 1).isSealed = false ∧
    ∀ r < 2, ∀ later, (((twins.after twinCalls).after later).airframe r).device (.text "UFC") =
      .ok ((twins.after twinCalls).device 0) := by
  have hnew : twins.New := ⟨fun _ => rfl, fun _ => rfl, fun _ => rfl⟩
  have hdone : twins.done twinCalls =
      [.addAction 0 (enter 3001), .register 0 0, .register 1 0, .addAction 1 (enter 3004)] := rfl
  refine ⟨hnew, hdone, ?_, ?_, rfl, fun r hr later => ?_⟩
  · obtain ⟨hactions, -⟩ := catalogs_settle twins hnew twinCalls []
    obtain ⟨-, -, -, hfind, -⟩ := hactions 0
    refine hfind (enter 3001) "ENTR" ?_ rfl
    rw [hdone]
    exact List.mem_cons_self
  · obtain ⟨-, hsealing, -⟩ := catalogs_settle twins hnew twinCalls []
    refine (hsealing 0).1.mpr ⟨.register 0 0, ?_, rfl⟩
    rw [hdone]
    exact List.mem_cons_of_mem _ List.mem_cons_self
  · obtain ⟨-, -, hairframes, -⟩ := catalogs_settle twins hnew twinCalls later
    obtain ⟨-, -, -, -, hfind, hforever⟩ := hairframes r
    refine hforever _ _ (hfind 0 "UFC" ?_ rfl)
    rw [hdone]
    rcases Nat.le_one_iff_eq_zero_or_eq_one.mp (Nat.le_of_lt_succ hr) with rfl | rfl
    · exact List.mem_cons_of_mem _ List.mem_cons_self
    · exact List.mem_cons_of_mem _ (List.mem_cons_of_mem _ List.mem_cons_self)

end Hangar

end Cockpit
