import Cockpit.Proofs.Json.Objects
import Cockpit.Proofs.Settings.Saving

/-!
# Loading from a missing file

A load of a file that is not there creates it, where its directory is there or can be made.  What
it writes are the settings as they are, so new settings that are loaded from the file are these
again, as far as they are read back (`Settings.RestoresDefaults`).

`Config.load_creates_iff` says when they are the defaults.  A path without a directory is refused,
since there is no directory to make, although the file could be written.  After a change of a
setting, a file that is created does not hold the defaults (`Config.not_createsDefaults`).
-/

namespace Cockpit

/-! ## Settings that are read back -/

namespace Settings

variable {s : Settings} {w : Value}

/-- How deep a value at a place may be nested in a file. -/
def Place.room : Place → Nat
  | .key _ => Json.innerLimit - 1
  | .version | .firstRun => Json.innerLimit

/-- What the value at a place is read back as from a file. -/
def reread (s : Settings) (p : Place) : Option Value := (s.value p).reread p.room

/-- If all values are read back, the object of settings is, and it offers each place what the value
there is read back as. -/
theorem exists_offered? (h : ∀ p, ∃ w, s.reread p = some w) :
    ∃ es : Entries, (Value.object s.toEntries).reread Json.depthLimit = some (.object es) ∧
      ∀ p, offered? es p = s.reread p := by
  have hsection (c : Section) : ∃ es : Entries,
      (Value.object (s.sectionEntries c)).reread Json.innerLimit = some (.object es) ∧
        ∀ key, es.get? key =
          (lastOf (s.sectionEntries c) key).bind (Value.reread (Json.innerLimit - 1)) := by
    refine Value.exists_reread_object fun e he => ?_
    obtain ⟨k, -, rfl⟩ := List.mem_map.mp he
    exact h (.key k)
  have hvalues : ∀ e ∈ s.toEntries, ∃ w, e.2.reread Json.innerLimit = some w := by
    intro e he
    rcases List.mem_append.mp he with he | he
    · obtain ⟨c, -, rfl⟩ := List.mem_map.mp he
      obtain ⟨es, hes, -⟩ := hsection c
      exact ⟨_, hes⟩
    · rcases List.mem_cons.mp he with rfl | he
      · exact h .version
      · cases List.mem_singleton.mp he
        exact h .firstRun
  obtain ⟨es, hes, hlast⟩ := Value.exists_reread_object hvalues
  refine ⟨es, hes, fun p => ?_⟩
  rw [offered?, hlast]
  cases p with
  | key k =>
      obtain ⟨es', hes', hlast'⟩ := hsection k.group
      have hgroup : lastOf s.toEntries (Place.key k).entry =
          some (.object (s.sectionEntries k.group)) := by cases k <;> rfl
      have hkey : lastOf (s.sectionEntries k.group) k.name = some (s.get k) := by
        cases k <;> rfl
      rw [hgroup, Option.bind_some, hes', Option.bind_some, Place.within?, hlast', hkey]
      rfl
  | version =>
      have hversion : lastOf s.toEntries Place.version.entry = some s.version := rfl
      rw [hversion, Option.bind_some]
      exact Option.bind_fun_some _
  | firstRun =>
      have hfirst : lastOf s.toEntries Place.firstRun.entry = some s.firstRun := rfl
      rw [hfirst, Option.bind_some]
      exact Option.bind_fun_some _

/-- The object of settings is read back only if all values are. -/
theorem exists_reread (h : (Value.object s.toEntries).reread Json.depthLimit = some w) :
    ∀ p, ∃ u, s.reread p = some u := by
  have hentry {e : String × Value} (he : e ∈ s.toEntries) :
      ∃ u, e.2.reread Json.innerLimit = some u := Value.exists_reread_of_object h he
  intro p
  cases p with
  | key k =>
      have hgroup : (k.group.name, Value.object (s.sectionEntries k.group)) ∈ s.toEntries := by
        refine List.mem_append_left _ (List.mem_map.mpr ⟨k.group, ?_, rfl⟩)
        cases k <;> decide
      obtain ⟨u, hu⟩ := hentry hgroup
      have hkey : (k.name, s.get k) ∈ s.sectionEntries k.group :=
        List.mem_map.mpr ⟨k, by cases k <;> decide, rfl⟩
      exact Value.exists_reread_of_object (d := Json.innerLimit - 1) hu hkey
  | version => exact hentry (List.mem_append_right _ List.mem_cons_self)
  | firstRun => exact hentry (List.mem_append_right _ (List.mem_cons_of_mem _ List.mem_cons_self))

/-- The text of settings is read as an object that offers each place what the value there is read
back as, or a value is not read back and the text passes a limit. -/
theorem read_fileText_cases (s : Settings) :
    (∃ es : Entries, Json.read s.fileText = .ok (.object es) ∧
      ∀ p, ∃ w, s.reread p = some w ∧ offered? es p = some w) ∨
    (∃ p, s.reread p = none) ∧ ∃ f, Json.read s.fileText = .error f ∧ f.isSyntax = false := by
  rcases Json.read_write_cases Json.spaced_file (.object s.toEntries) with
    ⟨w, hw, hread⟩ | ⟨hnone, hlimit⟩
  · obtain ⟨es, hes, hoffers⟩ := exists_offered? (exists_reread hw)
    cases hw.symm.trans hes
    refine .inl ⟨es, hread, fun p => ?_⟩
    obtain ⟨u, hu⟩ := exists_reread hw p
    exact ⟨u, hu, (hoffers p).trans hu⟩
  · refine .inr ⟨?_, hlimit⟩
    by_contra hall
    obtain ⟨es, hes, -⟩ := exists_offered? fun p =>
      Option.ne_none_iff_exists'.mp fun hp => hall ⟨p, hp⟩
    cases hnone.symm.trans hes

theorem hasPlainNames_of_reread {es es' : Entries} {d : Nat} (h : hasPlainNames es = true)
    (hes : (Value.object es).reread (d + 1) = some (.object es')) : hasPlainNames es' = true := by
  refine hasPlainNames_iff.mpr fun (key, v) hmem => ?_
  obtain ⟨u, hu, -⟩ := Value.exists_mem_of_reread hes hmem
  exact hasPlainNames_iff.mp h (key, u) hu

/-- The text of settings is read as an object without inner names. -/
theorem isProper_of_read {es : Entries} (h : Json.read s.fileText = .ok (.object es)) :
    isProper es = true := by
  have hreread : (Value.object s.toEntries).reread Json.depthLimit = some (.object es) := by
    rcases Json.read_write_cases Json.spaced_file (.object s.toEntries) with
      ⟨w, hw, hread⟩ | ⟨-, f, hf, -⟩
    · cases hread.symm.trans h
      exact hw
    · cases hf.symm.trans h
  obtain ⟨hnames, hsections⟩ := isProper_iff.mp s.isProper_toEntries
  refine isProper_iff.mpr
    ⟨hasPlainNames_of_reread (d := Json.innerLimit) hnames hreread, fun c fs hmem => ?_⟩
  obtain ⟨u, hu, hfs⟩ := Value.exists_mem_of_reread (d := Json.innerLimit) hreread hmem
  obtain rfl : u = .object (s.sectionEntries c) := by
    cases c <;> simpa [toEntries, Section.all, Section.name] using hu
  exact hasPlainNames_of_reread (d := Json.innerLimit - 1) (hsections c _ hu) hfs

/-- Whether settings are the defaults, but for the mark of the first run. -/
def IsDefault (s : Settings) : Prop := ∀ p, p ≠ .firstRun → s.value p = ({} : Settings).value p

/-- Whether every value is read back as one that is in range, and that new settings take as the
default if it is not the mark of the first run. -/
def RestoresDefaults (s : Settings) : Prop :=
  ∀ p, ∃ w, s.reread p = some w ∧ exceeds (({} : Settings).value p) w = false ∧
    (p ≠ .firstRun → accept (({} : Settings).value p) w = ({} : Settings).value p)

/-- Settings that can be saved restore the defaults only if they are these. -/
theorem Savable.restoresDefaults_iff (h : s.Savable) : s.RestoresDefaults ↔ s.IsDefault := by
  have hreread (p : Place) : s.reread p = some (s.value p) := (h.fits p p.room).reread
  have htaken (p : Place) : accept (({} : Settings).value p) (s.value p) = s.value p :=
    accept_of_keeps (h.keeps p)
  constructor
  · intro hs p hp
    obtain ⟨w, hw, -, haccept⟩ := hs p
    cases (hreread p).symm.trans hw
    exact (htaken p).symm.trans (haccept hp)
  · intro hs p
    exact ⟨_, hreread p, exceeds_of_keeps (h.keeps p), fun hp => (htaken p).trans (hs p hp)⟩

theorem savable_default : ({} : Settings).Savable where
  declares := declares_default
  version := rfl
  firstRun := rfl
  survives q x hx := by
    cases q with
    | key k =>
        cases k with
        | timeout =>
            obtain rfl : timeoutDefault = x := Value.float.inj hx
            decide +kernel
        | _ => cases hx
    | version => cases hx
    | firstRun => cases hx
  short q n hn := by
    cases q with
    | key k => cases k <;> cases hn <;> decide
    | version => cases hn
    | firstRun => cases hn

/-- Settings with a level other than the default do not restore the defaults. -/
theorem not_restoresDefaults {level : String} (h : s.level = .text level)
    (hne : level ≠ "INFO") : ¬ s.RestoresDefaults := by
  intro hs
  obtain ⟨w, hw, -, haccept⟩ := hs (.key .level)
  have hreread : s.reread (.key .level) = some (.text level) := by
    show s.level.reread _ = _
    rw [h]
    exact (Value.Fits.text _ level).reread
  cases hw.symm.trans hreread
  exact hne (Value.text.inj (haccept nofun))

end Settings

namespace Config

open Op
open Files (Route)
open Settings (Savable)

variable {c d : Config} {p : String} {r : Route} {s : Settings} {t : Files.Tree}

/-! ## New settings -/

/-- New settings take over the object that their file holds, or the text of the file goes beyond a
limit. -/
theorem load_cases_of_holdsText (h : c.HoldsText p r s.fileText) (hc : c.settings = {}) :
    (∃ es, Json.read s.fileText = .ok (.object es) ∧ ¬ Exceeds {} es ∧
      ((load .null).run c).1 = .ok true ∧ TakenOver es {} ((load .null).run c).2.settings) ∨
    GoesBeyond {} s.fileText ∧ ((load .null).run c).1 ≠ .ok true := by
  have hp : ((retarget .null).run c).2.path = .text p := h.path
  have hr := h.ready.read_flush h.file
  have htext := Files.textOf_encode s.fileText_plain
  have hprepare : ∃ t, c.host.flush.files.prepare (Files.parent p) = .ok t :=
    ⟨_, h.ready.flush.place.prepare⟩
  have hproper (es : Entries) (hes : Holds (Text.Utf8.encode s.fileText) es) :
      Settings.isProper es = true := Settings.isProper_of_read (hes.read_eq htext)
  by_cases hbeyond : GoesBeyond {} s.fileText
  · refine .inr ⟨hbeyond, fun htrue => ?_⟩
    obtain ⟨f, hf⟩ := load_stops hp hr hproper hprepare fun ⟨text, htext', hwithin⟩ => by
      cases htext.symm.trans htext'
      exact hwithin (hc ▸ hbeyond)
    cases hf.symm.trans htrue
  · refine .inl ?_
    have hsettles := load_settles hp hr hproper fun _ => ⟨_, htext, hc ▸ hbeyond⟩
    generalize (load .null).run c = result at hsettles
    cases hsettles with
    | @loaded es e hholds htaken =>
        have hread := hholds.read_eq htext
        exact ⟨es, hread, fun hx => hbeyond (.inr ⟨es, hread, hx⟩), rfl, hc ▸ htaken⟩
    | refused hwhy hkept =>
        rcases hwhy with hnone | ⟨f, hf⟩
        · rcases s.read_fileText_cases with ⟨es, hread, -⟩ | ⟨-, hlimit⟩
          · exact absurd ⟨_, htext, hread⟩ (hnone es)
          · exact absurd (.inl hlimit) hbeyond
        · obtain ⟨t, ht⟩ := hprepare
          cases hf.symm.trans ht

/-- New settings are the defaults just if those in their file restore these. -/
theorem load_isDefault_iff (h : c.HoldsText p r s.fileText) (hc : c.settings = {}) :
    ((load .null).run c).1 = .ok true ∧ ((load .null).run c).2.settings.IsDefault ↔
      s.RestoresDefaults := by
  rcases load_cases_of_holdsText h hc with ⟨es, hread, hrange, htrue, htaken⟩ | ⟨hbeyond, hfalse⟩
  · obtain ⟨es', hread', hoffers⟩ | ⟨-, f, hf, -⟩ := s.read_fileText_cases
    · cases hread.symm.trans hread'
      constructor
      · rintro ⟨-, hdefault⟩ q
        obtain ⟨w, hw, ho⟩ := hoffers q
        refine ⟨w, hw, Bool.of_not_eq_true fun hx => hrange ⟨q, w, ho, hx⟩, fun hq => ?_⟩
        have hvalue := htaken.value q hq
        rw [ho, hdefault q hq] at hvalue
        exact hvalue.symm
      · refine fun hs => ⟨htrue, fun q hq => ?_⟩
        obtain ⟨w, hw, ho⟩ := hoffers q
        obtain ⟨u, hu, -, haccept⟩ := hs q
        cases hw.symm.trans hu
        have hvalue := htaken.value q hq
        rw [ho] at hvalue
        exact hvalue.trans (haccept hq)
    · cases hread.symm.trans hf
  · refine iff_of_false (fun h => hfalse h.1) fun hs => ?_
    obtain ⟨es, hread, hoffers⟩ | ⟨⟨q, hq⟩, -⟩ := s.read_fileText_cases
    · rcases hbeyond with ⟨f, hf, -⟩ | ⟨es', hread', q, v, ho, hx⟩
      · cases hread.symm.trans hf
      · cases hread.symm.trans hread'
        obtain ⟨w, hw, ho'⟩ := hoffers q
        obtain ⟨u, hu, hrange, -⟩ := hs q
        cases hw.symm.trans hu
        cases ho.symm.trans ho'
        cases hx.symm.trans hrange
    · obtain ⟨w, hw, -⟩ := hs q
      cases hq.symm.trans hw

/-! ## Files that are missing -/

/-- Whether nothing is at a path where a file can be written, with or without a directory. -/
inductive Creatable (h : Host) (p : String) : Prop where
  | within {t : Files.Tree} {r : Route} (ha : h.Admits p t r)
      (hapart : ∀ d ∈ h.handlers, d.IsApart r t) (hnone : t.node? r = none)
  | bare {r : Route} (hparent : Files.parent p = "") (hroute : h.flush.files.route? p = some r)
      (hnone : h.flush.files.node? r = none)

theorem Creatable.ne_empty {h : Host} (hc : Creatable h p) : p ≠ "" := by
  cases hc with
  | within ha _ _ => exact ha.place.ne_empty
  | bare _ hroute _ =>
      rintro rfl
      cases hroute

/-- A load from a path that is not empty is one from there. -/
theorem retarget_text (hp : p ≠ "") (c : Config) :
    ((retarget (.text p)).run c).2 = { c with path := .text p } := by
  rw [retarget, Op.run_update]
  exact if_pos (bne_iff_ne.mpr hp)

/-- Reading a file that is not there makes its directory. -/
theorem run_readFile_missing (ha : c.host.Admits p t r)
    (hapart : ∀ d ∈ c.host.handlers, d.IsApart r t) (hnone : t.node? r = none) :
    ∃ d, (readFile p).run c = (.ok none, d) ∧ d.settings = c.settings ∧ d.path = c.path ∧
      d.host.Ready p r := by
  have hprepare := run_changeFiles (·.prepare (Files.parent p)) c
  rw [ha.prepared] at hprepare
  let h : Host := { c.host.flush with files := t }
  have hready : h.Ready p r := ha.ready hapart
  have hmissing : h.flush.files.exists? p = false := by
    refine Files.Tree.exists?_eq_false hready.flush.place.route ?_
    rw [(Host.undisturbed_flush hready.apart).node]
    exact hnone
  refine ⟨{ c with host := h.flush }, ?_, rfl, rfl, hready.flush⟩
  rw [readFile, run_bind_ok hprepare]
  show ((if h.flush.files.exists? p then
      (do return some (← (Host.readText p).on hostPart) : Op Config (Option String))
    else return none).run { c with host := h.flush }) = _
  rw [if_neg (by rw [hmissing]; exact Bool.false_ne_true)]
  rfl

/-- A missing file is created with the settings as they are. -/
theorem run_create (hr : c.host.Ready p r) (hp : c.path = .text p) :
    ∃ d, (create p).run c = (.ok (), d) ∧ d.settings = c.settings ∧
      d.HoldsText p r c.settings.fileText := by
  obtain ⟨d, hstore, hd, hholds⟩ := run_store hr.admits hr.apart_flush hp
  obtain ⟨said, hsay, hspared, halike⟩ :=
    run_say .info s!"Default configuration created at {p}" d
  refine ⟨said, ?_, hspared.trans hd, hholds.of_alike halike⟩
  rw [create, run_recover, run_bind_ok hstore, hsay]

/-- A load of a missing file creates it with the settings as they are. -/
theorem run_load_missing (ha : c.host.Admits p t r)
    (hapart : ∀ d ∈ c.host.handlers, d.IsApart r t) (hnone : t.node? r = none) :
    ∃ d, (load (.text p)).run c = (.ok true, d) ∧ d.settings = c.settings ∧
      d.HoldsText p r c.settings.fileText := by
  have hretarget := retarget_text ha.place.ne_empty c
  have hp : ((retarget (.text p)).run c).2.path = .text p := by rw [hretarget]
  obtain ⟨d, hread, hd, hpath, hready⟩ :=
    run_readFile_missing (c := { c with path := .text p }) ha hapart hnone
  obtain ⟨d₁, hsay, hd₁, halike⟩ := run_say .info s!"Configuration file not found at {p}" d
  obtain ⟨d₂, hcreate, hd₂, hholds⟩ := run_create (halike.ready hready) (halike.path.trans hpath)
  have hsettings : d₁.settings = c.settings := hd₁.trans hd
  rw [hsettings] at hd₂ hholds
  refine ⟨d₂, ?_, hd₂, hholds⟩
  rw [run_load hp, hretarget, run_recover, run_bind_ok hread, takeFile, run_bind_ok hsay,
    run_bind_ok hcreate]
  rfl

/-- A load from a path without a directory is refused. -/
theorem run_load_bare (hp : p ≠ "") (hparent : Files.parent p = "") (c : Config) :
    ((load (.text p)).run c).1 = .ok false := by
  have hretarget := retarget_text hp c
  have hpath : ((retarget (.text p)).run c).2.path = .text p := by rw [hretarget]
  have hprepare := run_changeFiles (·.prepare (Files.parent p)) { c with path := .text p }
  rw [hparent, Files.Tree.prepare_empty] at hprepare
  have hread := run_bind_error (f := takeFile p) (run_bind_error (f := fun _ => do
    if (← Host.lookAtFiles.on hostPart).exists? p then
      return some (← (Host.readText p).on hostPart)
    else return none) hprepare)
  rw [run_load hpath, hretarget, run_recover, readFile, hparent, hread]
  rfl

/-! ## Created files -/

/-- Whether a load tells that it could, the file is then there, and new settings that are loaded
from it are given ones. -/
def Creates (c : Config) (p : String) (s : Settings) : Prop :=
  let loaded := (load (.text p)).run c
  let fresh := (load .null).run (start loaded.2.host (.text p))
  loaded.1 = .ok true ∧ loaded.2.host.flush.files.exists? p = true ∧
    fresh.1 = .ok true ∧ fresh.2.settings = s

/-- Whether a load creates a file from which the defaults are loaded, but for the mark of the first
run. -/
def CreatesDefaults (c : Config) (p : String) : Prop := ∃ s, c.Creates p s ∧ s.IsDefault

/-- What a load creates is what new settings are loaded from. -/
theorem creates_iff (ha : c.host.Admits p t r) (hapart : ∀ d ∈ c.host.handlers, d.IsApart r t)
    (hnone : t.node? r = none) :
    ∃ d : Config, d.settings = {} ∧ d.HoldsText p r c.settings.fileText ∧
      ∀ s, c.Creates p s ↔
        ((load .null).run d).1 = .ok true ∧ ((load .null).run d).2.settings = s := by
  obtain ⟨d, hload, -, hholds⟩ := run_load_missing ha hapart hnone
  have hstart : (start d.host (.text p)).path = .text p :=
    if_pos (bne_iff_ne.mpr ha.place.ne_empty)
  have hexists : d.host.flush.files.exists? p = true :=
    Files.Tree.exists?_of_read (hholds.ready.read_flush hholds.file)
  refine ⟨start d.host (.text p), rfl, ⟨hstart, hholds.ready, hholds.file⟩, fun s => ?_⟩
  rw [Creates, hload]
  exact ⟨fun h => ⟨h.2.2.1, h.2.2.2⟩, fun h => ⟨rfl, hexists, h.1, h.2⟩⟩

/-- A missing file with a directory is created with the defaults just if the settings restore
these. -/
theorem createsDefaults_iff (ha : c.host.Admits p t r)
    (hapart : ∀ d ∈ c.host.handlers, d.IsApart r t) (hnone : t.node? r = none) :
    c.CreatesDefaults p ↔ c.settings.RestoresDefaults := by
  obtain ⟨d, hd, hholds, hcreates⟩ := creates_iff ha hapart hnone
  rw [← load_isDefault_iff hholds hd]
  constructor
  · rintro ⟨s, hs, hdefault⟩
    obtain ⟨htrue, rfl⟩ := (hcreates s).mp hs
    exact ⟨htrue, hdefault⟩
  · rintro ⟨htrue, hdefault⟩
    exact ⟨_, (hcreates _).mpr ⟨htrue, rfl⟩, hdefault⟩

/-- Settings that can be saved are loaded from the file that is created. -/
theorem creates_of_savable (ha : c.host.Admits p t r)
    (hapart : ∀ d ∈ c.host.handlers, d.IsApart r t) (hnone : t.node? r = none)
    (hs : c.settings.Savable) : c.Creates p { c.settings with firstRun := .bool false } := by
  obtain ⟨d, hd, hholds, hcreates⟩ := creates_iff ha hapart hnone
  obtain ⟨e, hload, he, -⟩ := hholds.load hs hd
  rw [hcreates, hload]
  exact ⟨rfl, he⟩

/-- No file is created at a path without a directory. -/
theorem not_creates_bare (hp : p ≠ "") (hparent : Files.parent p = "") (c : Config)
    (s : Settings) : ¬ c.Creates p s := fun h => by
  cases (run_load_bare hp hparent c).symm.trans h.1

/-- A load from a missing file creates it with the defaults just if its path has a directory and
the settings are read back as the defaults.  Settings that can be saved are what the file is
created with, if its path has a directory. -/
theorem load_creates_iff (h : Creatable c.host p) :
    (c.CreatesDefaults p ↔ Files.parent p ≠ "" ∧ c.settings.RestoresDefaults) ∧
      (c.settings.Savable →
        (Files.parent p ≠ "" → c.Creates p { c.settings with firstRun := .bool false }) ∧
        (c.CreatesDefaults p ↔ Files.parent p ≠ "" ∧ c.settings.IsDefault)) := by
  have hdefaults : c.CreatesDefaults p ↔ Files.parent p ≠ "" ∧ c.settings.RestoresDefaults := by
    cases h with
    | within ha hapart hnone =>
        rw [createsDefaults_iff ha hapart hnone, and_iff_right (ha.parent_ne_empty)]
    | bare hparent hroute hnone =>
        have hp : p ≠ "" := Creatable.ne_empty (.bare hparent hroute hnone)
        exact iff_of_false (fun ⟨s, hs, _⟩ => not_creates_bare hp hparent c s hs)
          fun hc => hc.1 hparent
  refine ⟨hdefaults, fun hs => ⟨fun hparent => ?_, ?_⟩⟩
  · cases h with
    | within ha hapart hnone => exact creates_of_savable ha hapart hnone hs
    | bare hbare _ _ => exact absurd hbare hparent
  · rw [hdefaults, hs.restoresDefaults_iff]

/-- The settings at their defaults, with the host of settings that need escapes. -/
def unwritten : Config := { awkward with settings := {} }

theorem load_creates_iff_unwritten :
    Creatable unwritten.host "/home/new/file" ∧ unwritten.settings.Savable ∧
      Files.parent "/home/new/file" ≠ "" ∧
      unwritten.Creates "/home/new/file" { firstRun := .bool false } ∧
      unwritten.CreatesDefaults "/home/new/file" := by
  let t := unwritten.host.flush.files.put ["new"] .directory
  have ha : unwritten.host.Admits "/home/new/file" t ["new", "file"] :=
    ⟨eq_ok_of_toOption (by decide +kernel), by decide +kernel, by decide +kernel,
      .inl (by decide +kernel)⟩
  have hapart : ∀ d ∈ unwritten.host.handlers, d.IsApart ["new", "file"] t := by
    intro d hd path hpath
    rcases List.mem_cons.mp hd with rfl | hd
    · cases hpath
    · cases List.mem_singleton.mp hd
      cases hpath
      decide +kernel
  have hc : Creatable unwritten.host "/home/new/file" :=
    .within ha hapart (by decide +kernel)
  have hparent : Files.parent "/home/new/file" ≠ "" := by decide
  obtain ⟨hcreates, hdefaults⟩ := (load_creates_iff hc).2 Settings.savable_default
  exact ⟨hc, Settings.savable_default, hparent, hcreates hparent,
    hdefaults.mpr ⟨hparent, fun _ _ => rfl⟩⟩

/-- After a level has been set, a missing file is not created with the defaults, and none is
created at a path without a directory. -/
theorem not_createsDefaults :
    let acts := [.load .null, .set (.text "logging") (.text "level") (.text "DEBUG")]
    let c := ((runAll acts).run (start (stored "\x7b\x7d").host (.text "/home/conf/file"))).2
    Creatable c.host "/home/conf/new" ∧ ¬ c.CreatesDefaults "/home/conf/new" ∧
      Creatable c.host "new" ∧ ¬ c.CreatesDefaults "new" := by
  intro acts c
  have hplace : c.host.flush.files.HasPlace "/home/conf/new" ["conf", "new"] :=
    ⟨by decide +kernel, by decide +kernel, .inl (by decide +kernel)⟩
  have ha : c.host.Admits "/home/conf/new" c.host.flush.files ["conf", "new"] :=
    ⟨hplace.prepare, hplace⟩
  have hapart : ∀ d ∈ c.host.handlers, d.IsApart ["conf", "new"] c.host.flush.files := by
    have hnone : c.host.handlers = [] := by decide +kernel
    rw [hnone]
    nofun
  have hmissing : c.host.flush.files.node? ["conf", "new"] = none := by decide +kernel
  have hbare : Creatable c.host "new" :=
    .bare (r := ["new"]) (by decide) (by decide +kernel) (by decide +kernel)
  have hlevel : c.settings.level = .text "DEBUG" := by decide +kernel
  refine ⟨.within ha hapart hmissing, ?_, hbare, ?_⟩
  · rw [createsDefaults_iff ha hapart hmissing]
    exact Settings.not_restoresDefaults hlevel (by decide)
  · rintro ⟨s, hs, -⟩
    exact not_creates_bare hbare.ne_empty (by decide) c s hs

end Config

end Cockpit
