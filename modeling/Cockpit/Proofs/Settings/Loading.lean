import Cockpit.Proofs.Files.Extending
import Cockpit.Proofs.Files.Texts
import Cockpit.Proofs.Json.Endings
import Cockpit.Proofs.Op.Preserves
import Cockpit.Proofs.Settings.Taking

/-!
# Loading settings from a file

`Config.Settles` says what a load of a file is to do.  It ends in a result.  If it tells that it
could load, the file holds an object, and each setting has what the object offers for it, or its
old value if that cannot be converted.  If it tells that it could not, no setting has changed.

`Config.load_settles_iff` says that this is so, of a file without inner names, unless the file is
no text in UTF-8, or exceeds a limit of the JSON reader, or offers a number out of the range of its
setting.  In these cases a load stops instead.  After a number out of range it has taken over what
the file offers before it (`Config.not_settles_infinity`).
-/

namespace Cockpit.Config

open Op
open Files (textOf)
open Settings (Place)

variable {c d : Config} {path : Value} {p text : String} {bytes : List UInt8} {es : Entries}
  {s s' : Settings}

/-! ## The parts of a load -/

/-- Reads the text of a file, if there is one, once the directory around it is there. -/
def readFile (p : String) : Op Config (Option String) := do
  changeFiles (·.prepare (Files.parent p))
  if (← Host.lookAtFiles.on hostPart).exists? p then
    return some (← (Host.readText p).on hostPart)
  else return none

/-- Takes over the text of a file, or creates the file. -/
def takeFile (p : String) : Option String → Op Config Bool
  | some text => takeText p text
  | none => do
    say .info s!"Configuration file not found at {p}"
    create p
    return true

/-- Reports that a file cannot be read. -/
def reportUnread (f : Fault) : Op Config Bool := do
  say .error s!"Error reading config file: {f.message}"
  return false

/-- A load reads the file before it changes anything, and takes over what it read. -/
theorem load_eq (path : Value) : load path = (do
    retarget path
    let p ← (← .state).path.needText
    (readFile p >>= takeFile p).recover Fault.isTransport reportUnread) := by
  have body (p : String) : readFile p >>= takeFile p = (do
      changeFiles (·.prepare (Files.parent p))
      if (← Host.lookAtFiles.on hostPart).exists? p then
        takeText p (← (Host.readText p).on hostPart)
      else do
        say .info s!"Configuration file not found at {p}"
        create p
        return true) := by
    rw [readFile, Op.bind_assoc]
    refine congrArg _ (funext fun _ => ?_)
    rw [Op.bind_assoc]
    refine congrArg _ (funext fun t => ?_)
    split
    · rw [Op.bind_assoc]
      exact congrArg _ (funext fun text => Op.pure_bind _ _)
    · rw [Op.pure_bind, takeFile]
  simp only [body]
  rfl

/-- Whether an operation leaves the settings alone, however it ends. -/
def Spares {α : Type} (x : Op Config α) : Prop := ∀ s, x.Preserves fun c => c.settings = s

theorem Spares.eq {α : Type} {x : Op Config α} (h : Spares x) (c : Config) :
    (x.run c).2.settings = c.settings := h _ c rfl

theorem spares_pure {α : Type} (a : α) : Spares (pure a) := fun _ => preserves_pure a

theorem spares_stop {α : Type} (f : Fault) : Spares (stop f : Op Config α) := fun _ =>
  preserves_stop f

theorem spares_liftM {α : Type} (x : Except Fault α) : Spares (liftM x : Op Config α) := fun _ =>
  preserves_liftM x

theorem spares_state : Spares state := fun _ => preserves_state

theorem spares_on {α : Type} (x : Op Host α) : Spares (x.on hostPart) :=
  fun _ => preserves_on x fun _ _ h => h

theorem Spares.bind {α β : Type} {x : Op Config α} {f : α → Op Config β} (hx : Spares x)
    (hf : ∀ a, Spares (f a)) : Spares (x >>= f) := fun s => (hx s).bind fun a => hf a s

/-- What is done with a result that is there, or nothing after a fault. -/
theorem spares_liftM_bind {α β : Type} {x : Except Fault α} {f : α → Op Config β}
    (h : ∀ a, x = .ok a → Spares (f a)) : Spares ((liftM x : Op Config α) >>= f) := by
  cases x with
  | ok a => exact h a rfl
  | error e => exact spares_stop e

theorem Spares.recover {α : Type} {x : Op Config α} {catches : Fault → Bool}
    {handle : Fault → Op Config α} (hx : Spares x) (hh : ∀ f, Spares (handle f)) :
    Spares (x.recover catches handle) := fun s => (hx s).recover fun f => hh f s

theorem spares_say (level : Log.Level) (text : String) : Spares (say level text) := spares_on _

/-- Telling of something and giving a result. -/
theorem spares_report {α : Type} (level : Log.Level) (text : String) (a : α) :
    Spares (do say level text; return a) := (spares_say level text).bind fun _ => spares_pure a

theorem spares_changeFiles (f : Files.Tree → Except Fault Files.Tree) : Spares (changeFiles f) :=
  spares_on _

theorem spares_retarget (path : Value) : Spares (retarget path) := fun _ =>
  preserves_update fun c hc => by
    split
    · exact hc
    · exact hc

theorem spares_readFile (p : String) : Spares (readFile p) := by
  refine (spares_changeFiles _).bind fun _ => (spares_on _).bind fun t => ?_
  split
  · exact (spares_on _).bind fun _ => spares_pure _
  · exact spares_pure _

theorem spares_store (p : String) : Spares (store p) := by
  rw [store]
  exact (spares_changeFiles _).bind fun _ => spares_state.bind fun _ => spares_changeFiles _

theorem spares_create (p : String) : Spares (create p) := by
  rw [create]
  exact ((spares_store p).bind fun _ => spares_say _ _).recover fun _ => spares_say _ _

theorem spares_reportUnread (f : Fault) : Spares (reportUnread f) := spares_report _ _ _

/-! ## Reading a file that is there -/

/-- A change of the files starts from log files that are up to date. -/
theorem run_changeFiles (f : Files.Tree → Except Fault Files.Tree) (c : Config) :
    (changeFiles f).run c =
      match f c.host.flush.files with
      | .ok t => (.ok (), { c with host := { c.host.flush with files := t } })
      | .error e => (.error e, { c with host := c.host.flush }) := by
  have hrun : (Host.changeFiles f).run c.host =
      ((liftM (f c.host.flush.files) : Op Host Files.Tree) >>= fun t =>
        .update fun h => { h with files := t }).run c.host.flush := rfl
  rw [changeFiles, run_on, show hostPart.get c = c.host from rfl, hrun, run_liftM_bind]
  cases f c.host.flush.files with
  | ok t => rfl
  | error e => rfl

/-- What a file holds that could be read before, as its text, unless its directory cannot be
made. -/
theorem run_readFile (hr : c.host.flush.files.read p = .ok bytes) :
    (∃ f, c.host.flush.files.prepare (Files.parent p) = .error f ∧ f.isTransport = true ∧
      ((readFile p).run c).1 = .error f) ∨
    (∃ t, c.host.flush.files.prepare (Files.parent p) = .ok t) ∧
      ((readFile p).run c).1 = (textOf bytes).map some := by
  have hplain := Files.Tree.isPlain_parent (Files.Tree.isPlain_of_read hr)
  have hrun := run_changeFiles (·.prepare (Files.parent p)) c
  rw [readFile]
  cases hp : c.host.flush.files.prepare (Files.parent p) with
  | error f =>
      rw [hp] at hrun
      rw [run_bind_error hrun]
      exact Or.inl ⟨f, rfl, Files.Tree.prepare_isTransport hplain hp, rfl⟩
  | ok t =>
      rw [hp] at hrun
      rw [run_bind_ok hrun]
      refine Or.inr ⟨⟨t, rfl⟩, ?_⟩
      -- from here on the log files are up to date, so nothing is written into the file
      let h : Host := { c.host.flush with files := t }
      have hflushed : h.IsFlushed := Host.isFlushed_flush c.host
      have hread : h.flush.files.read p = .ok bytes :=
        hflushed.extends_flush.read ((Files.Tree.prepare_extends hp).read hr)
      have hread' : h.flush.flush.files.read p = .ok bytes :=
        (Host.isFlushed_flush h).extends_flush.read hread
      show ((if h.flush.files.exists? p then
          (do return some (← (Host.readText p).on hostPart) : Op Config (Option String))
        else return none).run { c with host := h.flush }).1 = _
      rw [if_pos (Files.Tree.exists?_of_read hread), result_bind_pure]
      show Except.map some (h.flush.flush.files.readText p) = _
      rw [Files.readText_eq hread']

/-! ## Taking a text over -/

/-- Whether the bytes of a file hold an object. -/
def Holds (bytes : List UInt8) (es : Entries) : Prop :=
  ∃ text, textOf bytes = .ok text ∧ Json.read text = .ok (.object es)

theorem Holds.read_eq (h : Holds bytes es) (htext : textOf bytes = .ok text) :
    Json.read text = .ok (.object es) := by
  obtain ⟨text', htext', hread⟩ := h
  cases htext.symm.trans htext'
  exact hread

/-- Bytes hold one object at most. -/
theorem Holds.unique {es' : Entries} (h : Holds bytes es) (h' : Holds bytes es') : es' = es := by
  obtain ⟨text, htext, hread⟩ := h
  cases hread.symm.trans (h'.read_eq htext)
  rfl

/-- Whether settings come of others by taking an object over.  Each place has what comes of the
value that the object offers for it, if it offers one, except that something has been loaded. -/
structure TakenOver (es : Entries) (s s' : Settings) : Prop where
  loaded : s'.firstRun = .bool false
  value : ∀ p, p ≠ .firstRun → s'.value p =
    match Settings.offered? es p with
    | some v => Settings.accept (s.value p) v
    | none => s.value p

/-- Whether an object offers a number out of the range of its setting. -/
def Exceeds (s : Settings) (es : Entries) : Prop :=
  ∃ p v, Settings.offered? es p = some v ∧ Settings.exceeds (s.value p) v = true

/-- An object without inner names and without a number out of range is taken over. -/
theorem update_takenOver (he : (Value.object es).Keyed) (hproper : Settings.isProper es = true)
    (hr : ¬ Exceeds c.settings es) :
    ((update (.object es)).run c).1 = .ok () ∧
      TakenOver es c.settings ((update (.object es)).run c).2.settings := by
  have hrange : ∀ o ∈ Settings.offers es, Settings.exceeds (c.settings.value o.1) o.2 = false :=
    fun o ho => Bool.of_not_eq_true fun hx => hr ⟨o.1, o.2, (Settings.mem_offers he).mp ho, hx⟩
  obtain ⟨s, hrun, hin, hout⟩ := Settings.run_takeAll (Settings.nodup_offers he) hrange
  obtain ⟨hresult, hsettings⟩ := update_shows hproper c
  rw [run_bind_ok hrun] at hresult hsettings
  refine ⟨hresult, hsettings ▸ rfl, fun p hp => ?_⟩
  rw [hsettings, Op.run_update, Settings.value_put_of_ne s _ hp]
  cases ho : Settings.offered? es p with
  | some v => exact hin (p, v) ((Settings.mem_offers he).mpr ho)
  | none =>
      refine hout p fun hmem => ?_
      obtain ⟨⟨q, v⟩, hq, rfl⟩ := List.mem_map.mp hmem
      cases ho.symm.trans ((Settings.mem_offers he).mp hq)

/-- A number out of range stops an object from being taken over.  What it offers before that
number has been taken. -/
theorem update_stops (he : (Value.object es).Keyed) (hproper : Settings.isProper es = true)
    (hr : Exceeds c.settings es) :
    ∃ before o after, Settings.offers es = before ++ o :: after ∧
      Settings.exceeds (c.settings.value o.1) o.2 = true ∧
      ((update (.object es)).run c).1 = .error .overflow ∧
      ((update (.object es)).run c).2.settings = ((Settings.takeAll before).run c.settings).2 := by
  obtain ⟨p, v, ho, hx⟩ := hr
  obtain ⟨before, o, after, hos, hexceeds, -, hrun⟩ :=
    Settings.run_takeAll_overflow (Settings.nodup_offers he)
      ⟨(p, v), (Settings.mem_offers he).mpr ho, hx⟩
  obtain ⟨hresult, hsettings⟩ := update_shows hproper c
  rw [run_bind_error hrun] at hresult hsettings
  exact ⟨before, o, after, hos, hexceeds, hresult, hsettings⟩

/-- What is to become of a text that is taken over, given the settings before. -/
inductive TakesText (text : String) (s : Settings) : Except Fault Bool × Config → Prop where
  | taken {es : Entries} {d : Config} (hread : Json.read text = .ok (.object es))
      (htaken : TakenOver es s d.settings) : TakesText text s (.ok true, d)
  | refused {d : Config} (hread : ∀ es, Json.read text ≠ .ok (.object es))
      (hkept : d.settings = s) : TakesText text s (.ok false, d)

/-- Whether a text exceeds a limit of the reader, or offers a number out of range. -/
def GoesBeyond (s : Settings) (text : String) : Prop :=
  (∃ f, Json.read text = .error f ∧ f.isSyntax = false) ∨
    ∃ es, Json.read text = .ok (.object es) ∧ Exceeds s es

section

variable (hproper : ∀ es, Json.read text = .ok (.object es) → Settings.isProper es = true)
include hproper

/-- A text that goes beyond no limit is taken over, or refused as none that holds an object. -/
theorem takeText_takes (p : String) (h : ¬ GoesBeyond c.settings text) :
    TakesText text c.settings ((takeText p text).run c) := by
  have refused {level : Log.Level} {reason : String}
      (hnone : ∀ es, Json.read text ≠ .ok (.object es)) :
      TakesText text c.settings ((do say level reason; return false : Op Config Bool).run c) :=
    .refused hnone rfl
  rw [takeText]
  cases hread : Json.read text with
  | error f =>
      cases f with
      | syntaxError r n => exact refused fun es h => nomatch hread.symm.trans h
      | numeralTooLong n => exact absurd (Or.inl ⟨_, hread, rfl⟩) h
      | tooDeep => exact absurd (Or.inl ⟨_, hread, rfl⟩) h
  | ok v =>
      cases v with
      | object es =>
          obtain ⟨hresult, htaken⟩ := update_takenOver (Json.keyed_of_read hread)
            (hproper es hread) fun hx => h (Or.inr ⟨es, hread, hx⟩)
          dsimp only
          rw [run_bind_ok (Prod.ext hresult rfl)]
          exact .taken hread htaken
      | _ => exact refused fun es h => nomatch hread.symm.trans h

/-- A text that goes beyond a limit stops. -/
theorem takeText_stops (p : String) (h : GoesBeyond c.settings text) :
    ∃ f, ((takeText p text).run c).1 = .error f ∧ f.isTransport = false := by
  rw [takeText]
  rcases h with ⟨f, hread, hf⟩ | ⟨es, hread, hr⟩
  · rw [hread]
    cases f with
    | syntaxError r n => cases hf
    | numeralTooLong n => exact ⟨_, rfl, rfl⟩
    | tooDeep => exact ⟨_, rfl, rfl⟩
  · rw [hread]
    obtain ⟨_, _, _, -, -, hresult, -⟩ :=
      update_stops (Json.keyed_of_read hread) (hproper es hread) hr
    dsimp only
    rw [run_bind_error (Prod.ext hresult rfl)]
    exact ⟨_, rfl, rfl⟩

end

/-! ## Loads -/

/-- What a load of a file of bytes is to do, given the configuration before: to take over the
object that the file holds, or to leave the settings alone if it holds none or its directory
cannot be made. -/
inductive Settles (c : Config) (p : String) (bytes : List UInt8) :
    Except Fault Bool × Config → Prop where
  | loaded {es : Entries} {d : Config} (hholds : Holds bytes es)
      (htaken : TakenOver es c.settings d.settings) : Settles c p bytes (.ok true, d)
  | refused {d : Config}
      (hwhy : (∀ es, ¬ Holds bytes es) ∨
        ∃ f, c.host.flush.files.prepare (Files.parent p) = .error f)
      (hkept : d.settings = c.settings) : Settles c p bytes (.ok false, d)

/-- Whether a file of bytes is a text that goes beyond no limit. -/
def Loadable (s : Settings) (bytes : List UInt8) : Prop :=
  ∃ text, textOf bytes = .ok text ∧ ¬ GoesBeyond s text

theorem not_settles_of_error {r : Except Fault Bool × Config} {f : Fault} (h : r.1 = .error f) :
    ¬ Settles c p bytes r := by
  rintro (_ | _) <;> cases h

/-- A load that does with the text of the file what is to be done settles it. -/
theorem TakesText.settles (p : String) {r : Except Fault Bool × Config}
    (h : TakesText text c.settings r) (htext : textOf bytes = .ok text) :
    Settles c p bytes r := by
  cases h with
  | taken hread htaken => exact .loaded ⟨text, htext, hread⟩ htaken
  | refused hread hkept =>
      exact .refused (Or.inl fun es hes => hread es (hes.read_eq htext)) hkept

section

variable (hp : ((retarget path).run c).2.path = .text p)
  (hr : c.host.flush.files.read p = .ok bytes)
include hp

/-- A load reads the file at the path that it then has. -/
theorem run_load : (load path).run c =
    ((readFile p >>= takeFile p).recover Fault.isTransport reportUnread).run
      ((retarget path).run c).2 := by
  have hretarget : (retarget path).run c = (.ok (), ((retarget path).run c).2) := rfl
  rw [load_eq, run_bind_ok hretarget, run_state_bind, hp, run_liftM_bind]
  rfl

include hr

/-- A load of a file that is there, as what it reads and what it does with that. -/
theorem run_load_cases :
    (∃ f d, c.host.flush.files.prepare (Files.parent p) = .error f ∧
      (load path).run c = (.ok false, d) ∧ d.settings = c.settings) ∨
    (∃ t, c.host.flush.files.prepare (Files.parent p) = .ok t) ∧
      ((∃ f, textOf bytes = .error f ∧ ((load path).run c).1 = .error f) ∨
        ∃ text d, textOf bytes = .ok text ∧ d.settings = c.settings ∧
          (load path).run c =
            ((takeText p text).recover Fault.isTransport reportUnread).run d) := by
  have hhost : ((retarget path).run c).2.host = c.host := by
    rw [retarget, Op.run_update]
    split <;> rfl
  have hsettings := (spares_retarget path).eq c
  rw [run_load hp]
  generalize ((retarget path).run c).2 = c₁ at hhost hsettings
  have hread := run_readFile (hhost.symm ▸ hr : c₁.host.flush.files.read p = .ok bytes)
  have hspared := (spares_readFile p).eq c₁
  rw [run_recover]
  rcases hrun : (readFile p).run c₁ with ⟨r, d⟩
  rw [hhost, hrun] at hread
  rw [hrun, hsettings] at hspared
  rcases hread with ⟨f, hprepare, hf, rfl⟩ | ⟨hprepare, hresult⟩
  · rw [run_bind_error hrun]
    dsimp only
    rw [if_pos hf]
    exact Or.inl ⟨f, ((reportUnread f).run d).2, hprepare, rfl,
      ((spares_reportUnread f).eq d).trans hspared⟩
  · refine Or.inr ⟨hprepare, ?_⟩
    cases htext : textOf bytes with
    | error f =>
        obtain rfl : r = .error f := by rw [htext] at hresult; exact hresult
        have hf : f.isTransport = false := by
          unfold textOf at htext
          split at htext
          · cases htext
          · cases htext; rfl
        rw [run_bind_error hrun]
        exact Or.inl ⟨f, rfl, by simp only [hf, Bool.false_eq_true, if_false]⟩
    | ok text =>
        obtain rfl : r = .ok (some text) := by rw [htext] at hresult; exact hresult
        rw [run_bind_ok hrun]
        exact Or.inr ⟨text, d, rfl, hspared, rfl⟩

section

variable (hproper : ∀ es, Holds bytes es → Settings.isProper es = true)
include hproper

/-- A load settles a file that is loadable, and one whose directory cannot be made. -/
theorem load_settles (h : (∃ t, c.host.flush.files.prepare (Files.parent p) = .ok t) →
    Loadable c.settings bytes) : Settles c p bytes ((load path).run c) := by
  rcases run_load_cases hp hr with ⟨f, d, hprepare, hrun, hsettings⟩ | ⟨hprepare, hload⟩
  · rw [hrun]
    exact .refused (Or.inr ⟨f, hprepare⟩) hsettings
  obtain ⟨text, htext, hwithin⟩ := h hprepare
  rcases hload with ⟨f, htext', -⟩ | ⟨text', d, htext', hsettings, hrun⟩
  · cases htext.symm.trans htext'
  cases htext.symm.trans htext'
  have htakes := takeText_takes (fun es hread => hproper es ⟨text, htext, hread⟩) p
    (hsettings.symm ▸ hwithin)
  rw [hsettings] at htakes
  rw [hrun, run_recover]
  rcases hx : (takeText p text).run d with ⟨e | b, d'⟩
  · rw [hx] at htakes
    cases htakes
  · rw [hx] at htakes
    exact htakes.settles p htext

/-- A load of a file that is not loadable stops, if the directory of the file can be made. -/
theorem load_stops (hprepare : ∃ t, c.host.flush.files.prepare (Files.parent p) = .ok t)
    (h : ¬ Loadable c.settings bytes) : ∃ f, ((load path).run c).1 = .error f := by
  rcases run_load_cases hp hr with ⟨f, d, hprepare', -, -⟩ | ⟨-, hload⟩
  · obtain ⟨t, ht⟩ := hprepare
    cases ht.symm.trans hprepare'
  rcases hload with ⟨f, -, hrun⟩ | ⟨text, d, htext, hsettings, hrun⟩
  · exact ⟨f, hrun⟩
  have hbeyond : GoesBeyond d.settings text := hsettings.symm ▸
    Classical.byContradiction fun hwithin => h ⟨text, htext, hwithin⟩
  obtain ⟨f, hresult, hf⟩ :=
    takeText_stops (fun es hread => hproper es ⟨text, htext, hread⟩) p hbeyond
  rcases hx : (takeText p text).run d with ⟨r, d'⟩
  rw [hx] at hresult
  cases hresult
  rw [hrun, run_recover, hx]
  exact ⟨f, congrArg Prod.fst (if_neg (by simp [hf]))⟩

/-- A load of an object with a number out of range stops at the first one.  What the object offers
before that number has been taken. -/
theorem load_stops_midway (hprepare : ∃ t, c.host.flush.files.prepare (Files.parent p) = .ok t)
    (hholds : Holds bytes es) (hx : Exceeds c.settings es) :
    ∃ before o after, Settings.offers es = before ++ o :: after ∧
      Settings.exceeds (c.settings.value o.1) o.2 = true ∧
      ((load path).run c).1 = .error .overflow ∧
      ((load path).run c).2.settings = ((Settings.takeAll before).run c.settings).2 := by
  have hes := hproper es hholds
  obtain ⟨text, htext, hread⟩ := hholds
  rcases run_load_cases hp hr with ⟨f, d, hprepare', -, -⟩ | ⟨-, hload⟩
  · obtain ⟨t, ht⟩ := hprepare
    cases ht.symm.trans hprepare'
  rcases hload with ⟨f, htext', -⟩ | ⟨text', d, htext', hsettings, hrun⟩
  · cases htext.symm.trans htext'
  cases htext.symm.trans htext'
  rw [← hsettings] at hx ⊢
  obtain ⟨before, o, after, hos, hexceeds, hresult, hupdated⟩ :=
    update_stops (Json.keyed_of_read hread) hes hx
  refine ⟨before, o, after, hos, hexceeds, ?_⟩
  rw [hrun, run_recover, takeText, hread]
  dsimp only
  rw [run_bind_error (Prod.ext hresult rfl)]
  exact ⟨rfl, hupdated⟩

/-- A load of a file that is there, and holds no object with inner names, settles it, unless the
directory of the file can be made and the file is not loadable.  Then the load stops. -/
theorem load_settles_iff :
    (Settles c p bytes ((load path).run c) ↔
      ((∃ t, c.host.flush.files.prepare (Files.parent p) = .ok t) →
        Loadable c.settings bytes)) ∧
    (Settles c p bytes ((load path).run c) ∨ ∃ f, ((load path).run c).1 = .error f) := by
  by_cases h : (∃ t, c.host.flush.files.prepare (Files.parent p) = .ok t) →
      Loadable c.settings bytes
  · have hsettles := load_settles hp hr hproper h
    exact ⟨iff_of_true hsettles h, Or.inl hsettles⟩
  · obtain ⟨hprepare, hbeyond⟩ := Classical.not_imp.mp h
    obtain ⟨f, hf⟩ := load_stops hp hr hproper hprepare hbeyond
    exact ⟨iff_of_false (not_settles_of_error hf) h, Or.inr ⟨f, hf⟩⟩

end

end

/-- A configuration with a timeout of its own and a file. -/
def stored (text : String) : Config where
  host.files.root := "/home"
  host.files.nodes := [(["conf"], .directory), (["conf", "file"], .file (Text.Utf8.encode text))]
  path := .text "/home/conf/file"
  settings.timeout := .float .zero

/-- A text in ASCII without carriage returns holds the object that is read from it. -/
theorem holds_encode (h : text.toList.all fun c => c.toNat < 0x80 && c != '\r')
    (hread : Json.read text = .ok (.object es)) : Holds (Text.Utf8.encode text) es :=
  ⟨text, Files.textOf_encode h, hread⟩

/-- A text with a number that is none, a section that is none, and a numeral in quotes. -/
def mixedText : String :=
  "\x7b\"query\": \x7b\"timeout\": \"soon\"\x7d, \"builder\": 1, " ++
    "\"logging\": \x7b\"level\": \"DEBUG\", \"max_log_files\": \"7\"\x7d\x7d"

/-- The object of that text. -/
def mixedEntries : Entries :=
  [("query", .object [("timeout", .text "soon")]), ("builder", .int 1),
    ("logging", .object [("level", .text "DEBUG"), ("max_log_files", .text "7")])]

theorem load_settles_mixed :
    let c := stored mixedText
    let bytes := Text.Utf8.encode mixedText
    ((retarget .null).run c).2.path = .text "/home/conf/file" ∧
      c.host.flush.files.read "/home/conf/file" = .ok bytes ∧
      (∀ es, Holds bytes es → Settings.isProper es = true) ∧ Loadable c.settings bytes ∧
      Settles c "/home/conf/file" bytes ((load .null).run c) := by
  have hread : (stored mixedText).host.flush.files.read "/home/conf/file" =
      .ok (Text.Utf8.encode mixedText) := rfl
  have hobject : Json.read mixedText = .ok (.object mixedEntries) := rfl
  have hrange : ¬ Exceeds (stored mixedText).settings mixedEntries := by
    rintro ⟨p, v, ho, hx⟩
    cases p with
    | key k => cases k <;> cases ho <;> cases hx
    | version => cases ho
    | firstRun => cases ho
  have hloadable : Loadable (stored mixedText).settings (Text.Utf8.encode mixedText) := by
    refine ⟨mixedText, Files.textOf_encode (by decide), ?_⟩
    rintro (⟨f, hf, -⟩ | ⟨es, hes, hx⟩)
    · cases hobject.symm.trans hf
    · cases hobject.symm.trans hes
      exact hrange hx
  have hpath : ((retarget .null).run (stored mixedText)).2.path = .text "/home/conf/file" := rfl
  have hproper : ∀ es, Holds (Text.Utf8.encode mixedText) es → Settings.isProper es = true := by
    intro es hes
    rw [(holds_encode (by decide) hobject).unique hes]
    decide
  have h := load_settles_iff hpath hread hproper
  exact ⟨hpath, hread, hproper, hloadable, h.1.mpr fun _ => hloadable⟩

/-- A text with an infinity for an integer, after a level. -/
def endlessText : String :=
  "\x7b\"logging\": \x7b\"level\": \"DEBUG\", \"max_log_files\": Infinity\x7d\x7d"

/-- The object of that text. -/
def endlessEntries : Entries :=
  [("logging", .object [("level", .text "DEBUG"), ("max_log_files", .float (.inf false))])]

/-- An infinity for an integer is not left out but stops the load, after the level before it has
been taken over. -/
theorem not_settles_infinity :
    let c := stored endlessText
    let r := (load .null).run c
    r.1 = .error .overflow ∧ c.settings.level = .text "INFO" ∧ r.2.settings.level = .text "DEBUG" ∧
      ¬ Settles c "/home/conf/file" (Text.Utf8.encode endlessText) r := by
  have hpath : ((retarget .null).run (stored endlessText)).2.path = .text "/home/conf/file" := rfl
  have hread : (stored endlessText).host.flush.files.read "/home/conf/file" =
      .ok (Text.Utf8.encode endlessText) := rfl
  have hprepare : ∃ t, (stored endlessText).host.flush.files.prepare
      (Files.parent "/home/conf/file") = .ok t := ⟨_, rfl⟩
  have hholds : Holds (Text.Utf8.encode endlessText) endlessEntries :=
    holds_encode (by decide) rfl
  have hx : Exceeds (stored endlessText).settings endlessEntries :=
    ⟨.key .maxLogFiles, .float (.inf false), rfl, rfl⟩
  obtain ⟨before, o, after, hos, hexceeds, hresult, hsettings⟩ :=
    load_stops_midway hpath hread (fun es hes => hholds.unique hes ▸ by decide) hprepare hholds hx
  have hoffers : Settings.offers endlessEntries =
      [(.key .level, .text "DEBUG"), (.key .maxLogFiles, .float (.inf false))] := rfl
  rw [hoffers] at hos
  refine ⟨hresult, rfl, ?_, not_settles_of_error hresult⟩
  rw [hsettings]
  rcases before with _ | ⟨o₁, _ | ⟨o₂, before⟩⟩
  · cases hos
    cases hexceeds
  · cases hos
    rfl
  · cases before <;> cases hos

end Cockpit.Config
