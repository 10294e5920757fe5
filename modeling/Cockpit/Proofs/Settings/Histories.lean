import Cockpit.Proofs.Settings.Loading
import Cockpit.Settings.Act

/-!
# Histories of a configuration

Of the acts on a configuration only a reset, and those that offer values to places, change its
settings.  `Config.Act.offers` says what an act offers.  For a load that depends on the file.

`Config.Act.run_preserves` is the step lemma: an act preserves a property of the settings that
the defaults have, and that each offer of the act preserves, if it names nothing inner
(`Config.Act.isProper`).  `Config.runAll_preserves` says so of a whole history, in which all that is
offered is of one kind.
-/

namespace Cockpit.Config

open Op
open Settings (Place)

variable {α : Type} {P : Settings → Prop} {c : Config} {path : Value} {text : String}
  {es : Entries} {x : Op Config α}

/-! ## Offers -/

/-- What a load is given: the entries of the object in its file, if it finds one. -/
def given (path : Value) (c : Config) : Entries :=
  let c := ((retarget path).run c).2
  match c.path with
  | .text p =>
    match ((readFile p).run c).1 with
    | .ok (some text) =>
      match Json.read text with
      | .ok (.object es) => es
      | _ => []
    | _ => []
  | _ => []

theorem given_eq {p : String} {bytes : List UInt8}
    (hp : ((retarget path).run c).2.path = .text p)
    (hr : ((retarget path).run c).2.host.flush.files.read p = .ok bytes)
    (hprepare : ∃ t, ((retarget path).run c).2.host.flush.files.prepare (Files.parent p) = .ok t)
    (hholds : Holds bytes es) : given path c = es := by
  obtain ⟨t, ht⟩ := hprepare
  obtain ⟨text, htext, hread⟩ := hholds
  rcases run_readFile hr with ⟨f, hf, -⟩ | ⟨-, hfound⟩
  · cases ht.symm.trans hf
  · rw [htext] at hfound
    simp only [given, hp, hfound, Except.map, hread]

/-- The key of two names. -/
def target? : (group key : Value) → Option Settings.Key
  | .text g, .text k => (Settings.Section.ofName? g).bind (·.key? k)
  | _, _ => none

/-- The values that an act offers to places, in order. -/
def Act.offers (c : Config) : Act → List (Place × Value)
  | .load p => Settings.offers (given p c)
  | .set group key v =>
    match target? group key with
    | some k => [(.key k, v)]
    | none => []
  | .update (.object es) => Settings.offers es
  | _ => []

/-- Whether a value is an inner name. -/
def isInnerText : Value → Bool
  | .text name => Settings.isInner name
  | _ => false

/-- Whether an act names nothing inner. -/
def Act.isProper (c : Config) : Act → Bool
  | .load p => Settings.isProper (given p c)
  | .set group key _ => !isInnerText group && !isInnerText key
  | .update (.object es) => Settings.isProper es
  | _ => true

/-! ## Steps -/

/-- An operation that leaves the settings alone preserves all that holds of them. -/
theorem Spares.preserves (h : Spares x) : x.Preserves fun c => P c.settings := by
  intro c hc
  show P (x.run c).2.settings
  rw [h.eq c]
  exact hc

theorem Shows.preserves {y : Op Settings α} (h : Shows x y) (hy : y.Preserves P) :
    x.Preserves fun c => P c.settings := by
  intro c hc
  show P (x.run c).2.settings
  rw [(h c).2]
  exact hy c.settings hc

theorem takeAll_preserves {os : List (Place × Value)}
    (h : ∀ o ∈ os, (Settings.take o.1 o.2).Preserves P) : (Settings.takeAll os).Preserves P := by
  induction os with
  | nil => exact preserves_pure _
  | cons o os ih =>
      rw [Settings.takeAll_cons]
      exact (h o List.mem_cons_self).bind fun _ => ih fun o' ho => h o' (List.mem_cons_of_mem o ho)

section

variable (hloaded : ∀ s, P s → P (s.put (.bool false) .firstRun))
include hloaded

/-- Taking an object without inner names over preserves what its offers preserve. -/
theorem update_preserves (hproper : Settings.isProper es = true)
    (h : ∀ o ∈ Settings.offers es, (Settings.take o.1 o.2).Preserves P) :
    (update (.object es)).Preserves fun c => P c.settings :=
  (update_shows hproper).preserves ((takeAll_preserves h).bind fun _ => preserves_update hloaded)

theorem takeText_preserves (p : String) (h : ∀ es, Json.read text = .ok (.object es) →
    Settings.isProper es = true ∧
      ∀ o ∈ Settings.offers es, (Settings.take o.1 o.2).Preserves P) :
    (takeText p text).Preserves fun c => P c.settings := by
  rw [takeText]
  cases hread : Json.read text with
  | error f =>
      cases f with
      | syntaxError r n => exact (spares_report _ _ _).preserves
      | numeralTooLong n => exact preserves_stop _
      | tooDeep => exact preserves_stop _
  | ok v =>
      cases v with
      | object es =>
          obtain ⟨hproper, hoffers⟩ := h es hread
          exact (update_preserves hloaded hproper hoffers).bind fun _ =>
            (spares_report _ _ _).preserves
      | _ => exact (spares_report _ _ _).preserves

/-- What is done with what a file holds, or without a file, preserves what its offers preserve. -/
theorem takeFile_preserves (p : String) (found : Option String)
    (h : ∀ text es, found = some text → Json.read text = .ok (.object es) →
      Settings.isProper es = true ∧
        ∀ o ∈ Settings.offers es, (Settings.take o.1 o.2).Preserves P) :
    (takeFile p found).Preserves fun c => P c.settings := by
  cases found with
  | some text => exact takeText_preserves hloaded p fun es => h text es rfl
  | none =>
      exact ((spares_say _ _).bind fun _ => (spares_create p).bind fun _ =>
        spares_pure true).preserves

/-- A load preserves what the offers of its file preserve, if the file has no inner names. -/
theorem load_preserves (path : Value) (hproper : Settings.isProper (given path c) = true)
    (h : ∀ o ∈ Settings.offers (given path c), (Settings.take o.1 o.2).Preserves P)
    (hs : P c.settings) : P ((load path).run c).2.settings := by
  have hretarget : P ((retarget path).run c).2.settings := (spares_retarget path).preserves c hs
  by_cases hp : ∃ p, ((retarget path).run c).2.path = .text p
  · obtain ⟨p, hp⟩ := hp
    rw [run_load hp]
    refine recover_keeps (P := fun d : Config => P d.settings) ?_ fun f =>
      (spares_reportUnread f).preserves
    have hread : P ((readFile p).run ((retarget path).run c).2).2.settings :=
      (spares_readFile p).preserves _ hretarget
    rcases hrun : (readFile p).run ((retarget path).run c).2 with ⟨f | found, d⟩
    · rw [hrun] at hread
      rw [run_bind_error hrun]
      exact hread
    · rw [hrun] at hread
      rw [run_bind_ok hrun]
      refine takeFile_preserves hloaded p found (fun text es hfound hes => ?_) d hread
      subst hfound
      have hgiven : given path c = es := by simp only [given, hp, hrun, hes]
      exact hgiven ▸ ⟨hproper, h⟩
  · have hstop : ((retarget path).run c).2.path.needText = .error .wrongType := by
      cases hv : ((retarget path).run c).2.path with
      | text p => exact absurd ⟨p, hv⟩ hp
      | _ => rfl
    have hrun : (retarget path).run c = (.ok (), ((retarget path).run c).2) := rfl
    rw [load_eq, run_bind_ok hrun, run_state_bind, hstop, run_liftM_bind]
    exact hretarget

end

/-- A load that is given nothing leaves the keys alone. -/
theorem get_load (h : given path c = []) (k : Settings.Key) :
    ((load path).run c).2.settings.get k = c.settings.get k :=
  load_preserves (P := fun s => s.get k = c.settings.get k) (fun _ hs => hs) path
    (by rw [h]; rfl) (by rw [h]; nofun) rfl

section

variable {group key v : Value} {k : Settings.Key}

theorem eq_of_needText {s : String} (h : v.needText = .ok s) : v = .text s := by
  cases v with
  | text t => cases h; rfl
  | _ => cases h

/-- The key of two names, and the section that it is in. -/
theorem target?_eq_some : target? group key = some k ↔
    group = .text k.group.name ∧ key = .text k.name := by
  constructor
  · intro h
    unfold target? at h
    split at h
    · obtain ⟨g, hg, hk⟩ := Option.bind_eq_some_iff.mp h
      obtain ⟨rfl, rfl⟩ := Settings.Section.key?_eq_some.mp hk
      exact ⟨congrArg Value.text (Settings.Section.ofName?_eq_some.mp hg).symm, rfl⟩
    · cases h
  · rintro ⟨rfl, rfl⟩
    show (Settings.Section.ofName? k.group.name).bind (·.key? k.name) = some k
    rw [Settings.ofName?_name]
    exact Settings.Section.key?_eq_some.mpr ⟨rfl, rfl⟩

/-- A key takes a value, converted, or tells that it cannot be converted, or stops. -/
theorem run_set (k : Settings.Key) (v : Value) (c : Config) :
    (set (.text k.group.name) (.text k.name) v).run c =
      match Settings.convert (c.settings.get k) v with
      | .ok w => (.ok true, { c with settings := c.settings.set w k })
      | .error f =>
        if f.isConversion then
          (do
            say .error s!"Error setting {k.group.name}.{k.name}={v.toText}: {f.message}"
            return false : Op Config Bool).run c
        else (.error f, c) := by
  have hg := Settings.ofName?_name k.group
  have hk : k.group.key? k.name = some k := Settings.Section.key?_eq_some.mpr ⟨rfl, rfl⟩
  rw [set, run_liftM_bind]
  simp only [Value.needText, hg]
  rw [run_liftM_bind]
  simp only [hk]
  rw [run_recover, run_state_bind, run_liftM_bind]
  cases Settings.convert (c.settings.get k) v with
  | ok w => rfl
  | error f => rfl

/-- Giving a key a value offers the value to the key, and nothing else. -/
theorem forall_offers_set {Q : Place × Value → Prop} (h : Q (.key k, v)) :
    ∀ o ∈ (Act.set (.text k.group.name) (.text k.name) v).offers c, Q o := by
  rw [Act.offers, target?_eq_some.mpr ⟨rfl, rfl⟩]
  exact List.forall_mem_singleton.mpr h

/-- Names of no key are refused, unless the second one is an inner name. -/
theorem spares_set (h : target? group key = none) (hkey : isInnerText key = false) :
    Spares (set group key v) := by
  rw [set]
  refine spares_liftM_bind fun g hg => ?_
  obtain rfl := eq_of_needText hg
  cases hs : Settings.Section.ofName? g with
  | none => exact spares_report _ _ _
  | some s =>
      refine spares_liftM_bind fun l hl => ?_
      obtain rfl := eq_of_needText hl
      have hk : s.key? l = none := by
        rw [target?, hs] at h
        exact h
      rw [hk]
      dsimp only
      rw [if_neg (Settings.ne_valuesName hkey), if_neg (Settings.ne_holderName hkey)]
      exact spares_report _ _ _

/-- Giving a key a value preserves what the offer preserves. -/
theorem set_preserves (hkey : isInnerText key = false) (h : ∀ k, target? group key = some k →
    (Settings.take (.key k) v).Preserves P) :
    (set group key v).Preserves fun c => P c.settings := by
  cases ht : target? group key with
  | none => exact (spares_set ht hkey).preserves
  | some k =>
      obtain ⟨rfl, rfl⟩ := target?_eq_some.mp ht
      intro c hc
      have htake := h k ht c.settings hc
      rw [Settings.take, run_state_bind] at htake
      show P ((set (.text k.group.name) (.text k.name) v).run c).2.settings
      rw [run_set]
      cases hconvert : Settings.convert (c.settings.get k) v with
      | ok w =>
          have hvalue : Settings.convert (c.settings.value (.key k)) v = .ok w := hconvert
          rw [hvalue] at htake
          exact htake
      | error f =>
          dsimp only
          split
          · exact hc
          · exact hc

end

theorem spares_save (path : Value) : Spares (save path) := by
  rw [save]
  refine (spares_retarget path).bind fun _ => spares_state.bind fun _ => ?_
  refine (spares_liftM _).bind fun p => Spares.recover ?_ fun f => spares_report _ _ _
  exact (spares_store p).bind fun _ => spares_report _ _ _

theorem spares_setUpLogging : Spares setUpLogging := by
  rw [setUpLogging]
  exact spares_state.bind fun _ => (spares_on _).bind fun _ => spares_say _ _

section

variable (hinit : P {}) (hloaded : ∀ s, P s → P (s.put (.bool false) .firstRun))
include hinit hloaded

/-- An act that names nothing inner preserves what the defaults have and each of its offers
preserves. -/
theorem Act.run_preserves (a : Act) (hproper : a.isProper c = true)
    (h : ∀ o ∈ a.offers c, (Settings.take o.1 o.2).Preserves P) (hs : P c.settings) :
    P (a.run.run c).2.settings := by
  have spared {x : Op Config Reply} (hx : Spares x) : P (x.run c).2.settings := hx.preserves c hs
  cases a with
  | load p =>
      rw [Act.run, state_bind_pure]
      exact load_preserves hloaded p hproper h hs
  | set group key v =>
      rw [Act.run, state_bind_pure]
      rw [Act.isProper, Bool.and_eq_true, Bool.not_eq_true', Bool.not_eq_true'] at hproper
      refine set_preserves hproper.2 (fun k hk => h (.key k, v) ?_) c hs
      rw [Act.offers, hk]
      exact List.mem_singleton.mpr rfl
  | reset => exact hinit
  | update data =>
      cases data with
      | object es =>
          exact (update_preserves hloaded hproper h).bind (fun _ => preserves_pure _) c hs
      | _ => exact hs
  | save p => exact spared ((spares_save p).bind fun _ => spares_pure _)
  | get g k =>
      exact spared (spares_state.bind fun _ => (spares_liftM _).bind fun _ => spares_pure _)
  | validate =>
      exact spared (spares_state.bind fun _ => (spares_liftM _).bind fun _ => spares_pure _)
  | setUpLogging =>
      exact spared (spares_setUpLogging.bind fun _ => spares_state.bind fun _ => spares_pure _)
  | encode part => exact hs
  | path => exact hs
  | fileText p => exact spared ((spares_on _).bind fun _ => spares_pure _)
  | putFile p bytes => exact spared ((spares_changeFiles _).bind fun _ => spares_pure _)
  | misuse => exact hs

end

/-! ## Histories -/

/-- Whether all acts of a history have a property, each in the configuration that it finds. -/
def Along (R : Config → Act → Prop) : List Act → Config → Prop
  | [], _ => True
  | a :: as, c => R c a ∧ Along R as (a.run.run c).2

/-- Whether all that a history offers is of one kind. -/
def Offering (Q : Place × Value → Prop) : List Act → Config → Prop :=
  Along fun c a => ∀ o ∈ a.offers c, Q o

/-- Whether a history names nothing inner. -/
def Proper : List Act → Config → Prop := Along fun c a => a.isProper c = true

theorem run_runAll_nil (c : Config) : (runAll []).run c = (.ok (), c) := rfl

theorem run_runAll_cons (a : Act) (as : List Act) (c : Config) :
    (runAll (a :: as)).run c = (runAll as).run (a.run.run c).2 := rfl

/-- A history that names nothing inner preserves what the defaults have and each offer of its kind
preserves. -/
theorem runAll_preserves {Q : Place × Value → Prop} (hinit : P {})
    (htake : ∀ o, Q o → (Settings.take o.1 o.2).Preserves P)
    (hloaded : ∀ s, P s → P (s.put (.bool false) .firstRun)) {as : List Act}
    (hproper : Proper as c) (h : Offering Q as c) (hs : P c.settings) :
    P ((runAll as).run c).2.settings := by
  induction as generalizing c with
  | nil => exact hs
  | cons a as ih =>
      rw [run_runAll_cons]
      refine ih hproper.2 h.2 ?_
      exact Act.run_preserves hinit hloaded a hproper.1 (fun o ho => htake o (h.1 o ho)) hs

end Cockpit.Config
