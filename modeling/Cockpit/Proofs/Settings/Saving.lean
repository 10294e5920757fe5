import Cockpit.Proofs.Files.Routes
import Cockpit.Proofs.Json.Printed
import Cockpit.Proofs.Settings.ReadBack
import Mathlib.Algebra.Group.Nat.Defs

/-!
# Loading what was saved

Settings are saved as a text in ASCII that denotes the object of their entries, and that object
offers each place the value that it has (`Settings.offered?_toEntries`).  A value of the declared
type is kept in the place of the default, so new settings that take the object over are the saved
ones, except that something has been loaded (`Settings.Savable.eq_of_takenOver`).

`Config.save_loads_back` puts this together with the files: settings that are saved at a path that
can be written are loaded from there by a new configuration, and saving those again writes the same
text but for the mark of the first run.  That needs the log files to be elsewhere, since a save is
logged after the file was written (`Config.save_not_loaded_back`).
-/

namespace Cockpit

/-! ## Objects with another last value -/

namespace Json

theorem intercalate_concat (sep : List Char) (parts : List (List Char)) :
    ∃ front, ∀ last, sep.intercalate (parts ++ [last]) = front ++ last := by
  induction parts with
  | nil => exact ⟨[], fun last => List.intercalate_singleton⟩
  | cons p ps ih =>
      obtain ⟨front, h⟩ := ih
      refine ⟨p ++ sep ++ front, fun last => ?_⟩
      obtain ⟨q, qs, hq⟩ := List.exists_cons_of_ne_nil (List.append_ne_nil_of_right_ne_nil ps
        (List.cons_ne_nil last []))
      rw [List.cons_append, hq, List.intercalate_cons_cons, ← hq, h, List.append_assoc,
        List.append_assoc, List.append_assoc]

/-- The last value of an object stands in one place of its text. -/
theorem writeAt_concat (s : Style) (es : Entries) (key : String) : ∃ front back, ∀ v,
    writeAt s 0 (.object (es ++ [(key, v)])) = front ++ writeAt s 1 v ++ back := by
  let line := lineBreak s 1
  obtain ⟨front, h⟩ := intercalate_concat (s.comma.toList ++ line)
    (es.map (writeEntry s (writeAt s 1)))
  refine ⟨'\x7b' :: line ++ front ++ (writeString s.escapeAll key ++ s.colon.toList),
    lineBreak s 0 ++ ['\x7d'], fun v => ?_⟩
  have hwritten : writeEntry s (writeAt s 1) (key, v) =
      writeString s.escapeAll key ++ s.colon.toList ++ writeAt s 1 v := rfl
  have hne : es.map (writeEntry s (writeAt s 1)) ++ [writeEntry s (writeAt s 1) (key, v)] ≠ [] :=
    List.append_ne_nil_of_right_ne_nil _ (List.cons_ne_nil _ [])
  have hrow := enclose_append (s := s) 0 '\x7b' '\x7d' hne []
  rw [List.append_nil, Nat.zero_add, h, hwritten] at hrow
  rw [writeAt_object, List.map_append, List.map_singleton, Nat.zero_add, hwritten,
    hrow]
  simp only [line, List.append_assoc, List.cons_append]

end Json

namespace Settings

variable {s s' : Settings} {u v : Value} {p : Place}

/-! ## Settings that can be saved -/

/-- Whether all settings have their declared types, with numbers that JSON can carry. -/
structure Savable (s : Settings) : Prop where
  declares : ∀ k : Key, k.Declares (s.get k)
  version : s.version.typeName = "str"
  firstRun : s.firstRun.typeName = "bool"
  survives : ∀ p x, s.value p = .float x → x.Survives
  short : ∀ p n, s.value p = .int n → Number.digitCount n.natAbs ≤ Number.digitLimit

/-- A setting of its declared type is neither a list nor an object. -/
theorem Savable.typeName_mem (h : s.Savable) (p : Place) :
    (s.value p).typeName ∈ ["float", "bool", "str", "int", "NoneType"] := by
  cases p with
  | key k =>
      show (s.get k).typeName ∈ _
      rcases h.declares k with hk | ⟨-, hk⟩
      · rw [hk]
        cases k <;> decide
      · rw [hk]
        decide
  | version =>
      show s.version.typeName ∈ _
      rw [h.version]
      decide
  | firstRun =>
      show s.firstRun.typeName ∈ _
      rw [h.firstRun]
      decide

theorem Savable.fits (h : s.Savable) (p : Place) (d : Nat) : (s.value p).Fits d := by
  have htype := h.typeName_mem p
  have hfloat := h.survives p
  have hint := h.short p
  generalize s.value p = v at htype hfloat hint
  cases v with
  | null => exact .null d
  | bool b => exact .bool d b
  | int n => exact .int d (hint n rfl)
  | float x => exact .float d (hfloat x rfl)
  | text s => exact .text d s
  | list xs => simp [Value.typeName] at htype
  | object es => simp [Value.typeName] at htype

theorem Savable.keeps (h : s.Savable) : ∀ p, Keeps (({} : Settings).value p) (s.value p)
  | .key k => (declares_default k).keeps (h.declares k)
  | .version => .inr (.inr (.inl h.version.symm))
  | .firstRun => .inr (.inr (.inl h.firstRun.symm))

theorem exists_bool (h : v.typeName = "bool") : ∃ b, v = .bool b := by
  cases v with
  | bool b => exact ⟨b, rfl⟩
  | _ => simp [Value.typeName] at h

theorem accept_of_keeps (h : Keeps u v) : accept u v = v := by rw [accept, convert_of_keeps h]

theorem exceeds_of_keeps (h : Keeps u v) : exceeds u v = false := by
  refine Bool.of_not_eq_true fun hx => ?_
  cases (convert_of_exceeds hx).symm.trans (convert_of_keeps h)

/-- The object of settings offers each place its value. -/
theorem offered?_toEntries (s : Settings) : ∀ p, offered? s.toEntries p = some (s.value p)
  | .key k => by cases k <;> rfl
  | .version => rfl
  | .firstRun => rfl

/-- No setting is saved under an inner name. -/
theorem isProper_toEntries (s : Settings) : isProper s.toEntries = true := rfl

theorem Savable.fits_toEntries (h : s.Savable) (d : Nat) :
    (Value.object s.toEntries).Fits (d + 2) := by
  have hsection (c : Section) : (Value.object (s.sectionEntries c)).Fits (d + 1) := by
    have hkeys : (s.sectionEntries c).map Prod.fst = c.keys.map Key.name := by
      rw [sectionEntries, List.map_map]
      rfl
    refine .object ?_ fun e he => ?_
    · rw [hkeys]
      cases c <;> decide
    obtain ⟨k, -, rfl⟩ := List.mem_map.mp he
    exact h.fits (.key k) d
  have hnames : s.toEntries.map Prod.fst =
      ["query", "builder", "logging", "version", "first_run"] := rfl
  refine .object (by rw [hnames]; decide) fun e he => ?_
  rcases List.mem_append.mp he with he | he
  · obtain ⟨c, -, rfl⟩ := List.mem_map.mp he
    exact hsection c
  · rcases List.mem_cons.mp he with rfl | he
    · exact h.fits .version _
    · cases List.mem_singleton.mp he
      exact h.fits .firstRun _

/-! ## Texts of settings -/

/-- The text of a file of settings. -/
def fileText (s : Settings) : String := Json.write .file (.object s.toEntries)

theorem Savable.read_fileText (h : s.Savable) :
    Json.read s.fileText = .ok (.object s.toEntries) :=
  Json.read_write Json.spaced_file (h.fits_toEntries _)

/-- The text of settings is in ASCII without carriage returns. -/
theorem fileText_plain (s : Settings) :
    s.fileText.toList.all fun c => c.toNat < 0x80 && c != '\r' := by
  refine List.all_eq_true.mpr fun c hc => ?_
  rcases Json.write_printed Json.printed_file _ c hc with rfl | ⟨hlow, hhigh⟩
  · rfl
  · have hreturn : c ≠ '\r' := by
      rintro rfl
      exact absurd hlow (by decide)
    simp only [Bool.and_eq_true, decide_eq_true_eq, bne_iff_ne]
    exact ⟨Nat.lt_succ_of_lt hhigh, hreturn⟩

/-- The mark of the first run is written in one place. -/
theorem fileText_firstRun (s : Settings) : ∃ front back, ∀ b : Bool,
    ({ s with firstRun := .bool b } : Settings).fileText = front ++ toString b ++ back := by
  obtain ⟨front, back, h⟩ := Json.writeAt_concat .file
    (Section.all.map (fun c : Section => (c.name, Value.object (s.sectionEntries c))) ++
      [("version", s.version)]) "first_run"
  refine ⟨String.ofList front, String.ofList back, fun b => ?_⟩
  have hb : Json.writeAt .file 1 (.bool b) = (toString b).toList := by cases b <;> rfl
  have hentries : ({ s with firstRun := .bool b } : Settings).toEntries =
    (Section.all.map (fun c : Section => (c.name, Value.object (s.sectionEntries c))) ++
      [("version", s.version)]) ++ [("first_run", .bool b)] := rfl
  rw [fileText, Json.write, hentries, h, hb, String.ofList_append, String.ofList_append,
    String.ofList_toList]

end Settings

namespace Config

open Op
open Files (Route)
open Settings (Savable)

variable {α β : Type} {c d : Config} {p : String} {r : Route} {s : Settings} {t : Files.Tree}
  {path : Value} {text : String}

/-- Settings that come of the defaults by taking over the object of saved ones are these, except
that something has been loaded. -/
theorem TakenOver.eq_of_savable (hs : s.Savable) {s' : Settings}
    (h : TakenOver s.toEntries {} s') : s' = { s with firstRun := .bool false } := by
  refine Settings.ext_value fun q => ?_
  by_cases hq : q = .firstRun
  · subst hq
    exact h.loaded
  · have hvalue := h.value q hq
    rw [Settings.offered?_toEntries] at hvalue
    rw [hvalue]
    refine (Settings.accept_of_keeps (hs.keeps q)).trans ?_
    cases q with
    | key k => cases k <;> rfl
    | version => rfl
    | firstRun => exact absurd rfl hq

/-! ## What only logs -/

/-- Whether a configuration has the files, handlers and path that another one has. -/
structure Alike (c d : Config) : Prop where
  files : d.host.files = c.host.files
  handlers : d.host.handlers = c.host.handlers
  path : d.path = c.path

theorem Alike.refl (c : Config) : Alike c c := ⟨rfl, rfl, rfl⟩

/-- Whether an operation does no more than log and change the settings. -/
def OnlyLogs (x : Op Config α) : Prop := ∀ c, x.Preserves (Alike c)

theorem onlyLogs_pure (a : α) : OnlyLogs (pure a) := fun _ => preserves_pure a

theorem OnlyLogs.bind {x : Op Config α} {f : α → Op Config β} (hx : OnlyLogs x)
    (hf : ∀ a, OnlyLogs (f a)) : OnlyLogs (x >>= f) := fun c => (hx c).bind fun a => hf a c

theorem onlyLogs_say (level : Log.Level) (text : String) : OnlyLogs (say level text) :=
  fun _ => preserves_update fun _ h => ⟨h.files, h.handlers, h.path⟩

/-- Telling of something leaves the settings and the files as they are. -/
theorem run_say (level : Log.Level) (text : String) (c : Config) :
    ∃ d, (say level text).run c = (.ok (), d) ∧ d.settings = c.settings ∧ Alike c d :=
  ⟨_, rfl, rfl, onlyLogs_say level text c c (.refl c)⟩

theorem onlyLogs_forM {xs : List α} {f : α → Op Config Unit} (hf : ∀ a, OnlyLogs (f a)) :
    OnlyLogs (xs.forM f) := by
  induction xs with
  | nil => exact onlyLogs_pure ()
  | cons x xs ih => exact (hf x).bind fun _ => ih

theorem onlyLogs_takeValue (key : String) (current value : Value)
    (store : Value → Settings → Settings) : OnlyLogs (takeValue key current value store) := by
  intro c
  refine Preserves.recover ?_ fun _ => onlyLogs_say _ _ c
  exact (preserves_liftM _).bind fun _ => preserves_update fun _ h => ⟨h.files, h.handlers, h.path⟩

theorem onlyLogs_takeValues (s : Settings.Section) (v : Value) : OnlyLogs (takeValues s v) := by
  intro c
  refine Preserves.recover ?_ fun _ => onlyLogs_say _ _ c
  refine preserves_state.bind fun _ => (preserves_liftM _).bind fun _ => ?_
  exact preserves_update fun _ h => ⟨h.files, h.handlers, h.path⟩

/-- A value that is converted to the type of the current one changes no more than the settings. -/
theorem onlyLogs_taken {f : Config → Value} {store : Value → Settings → Settings} {key : String}
    {v : Value} : OnlyLogs (state >>= fun c => takeValue key (f c) v store) := fun c =>
  preserves_state.bind fun _ => onlyLogs_takeValue _ _ _ _ c

theorem onlyLogs_holder (name : String) :
    OnlyLogs (if name = Settings.holderName then stop .noMember else pure ()) := by
  split
  · exact fun _ => preserves_stop _
  · exact onlyLogs_pure ()

theorem onlyLogs_takeMember (c : Settings.Section) (name : String) (v : Value) :
    OnlyLogs (takeMember c name v) := by
  unfold takeMember
  split
  · exact onlyLogs_taken
  · split
    · exact onlyLogs_takeValues c v
    · exact onlyLogs_holder name

theorem onlyLogs_takeEntry (name : String) (v : Value) : OnlyLogs (takeEntry name v) := by
  unfold takeEntry
  split
  · exact onlyLogs_forM fun e => onlyLogs_takeMember _ e.1 e.2
  · exact onlyLogs_say _ _
  · split
    · exact onlyLogs_taken
    · split
      · exact onlyLogs_taken
      · exact onlyLogs_holder name

theorem onlyLogs_update (es : Entries) : OnlyLogs (update (.object es)) := by
  have hentries : OnlyLogs (es.forM fun e => takeEntry e.1 e.2) :=
    onlyLogs_forM fun e => onlyLogs_takeEntry e.1 e.2
  exact hentries.bind fun _ _ => preserves_update fun _ h => ⟨h.files, h.handlers, h.path⟩

/-! ## Files that hold settings -/

/-- Whether the file of a configuration, at a route without logs, holds the text of settings. -/
structure HoldsText (c : Config) (p : String) (r : Route) (text : String) : Prop where
  path : c.path = .text p
  ready : c.host.Ready p r
  file : c.host.files.node? r = some (.file (Text.Utf8.encode text))

theorem Alike.ready (h : Alike c d) (hr : c.host.Ready p r) : d.host.Ready p r := by
  refine ⟨?_, ?_⟩
  · rw [h.files]
    exact hr.place
  · rw [h.files, h.handlers]
    exact hr.apart

theorem HoldsText.of_alike (h : c.HoldsText p r text) (ha : Alike c d) : d.HoldsText p r text := by
  refine ⟨ha.path.trans h.path, ha.ready h.ready, ?_⟩
  rw [ha.files]
  exact h.file

/-- Bringing the log files up to date leaves the file as it is. -/
theorem HoldsText.flush (h : c.HoldsText p r text) :
    ({ c with host := c.host.flush } : Config).HoldsText p r text := by
  refine ⟨h.path, h.ready.flush, ?_⟩
  rw [← h.file]
  exact (Host.undisturbed_flush h.ready.apart).node

/-- The text that the file of saved settings holds, once the log files are up to date. -/
theorem HoldsText.readText (h : c.HoldsText p r s.fileText) :
    c.host.flush.files.readText p = .ok s.fileText := by
  rw [Files.readText_eq (h.ready.read_flush h.file), Files.textOf_encode s.fileText_plain]

/-! ## Saving -/

/-- Settings are stored where a file can be written, with the log files elsewhere. -/
theorem run_store (ha : c.host.Admits p t r) (hapart : ∀ d ∈ c.host.handlers, d.IsApart r t)
    (hp : c.path = .text p) :
    ∃ d, (store p).run c = (.ok (), d) ∧ d.settings = c.settings ∧
      d.HoldsText p r c.settings.fileText := by
  have hprepare := run_changeFiles (·.prepare (Files.parent p)) c
  rw [ha.prepared] at hprepare
  have hready := (ha.ready hapart).flush
  have hwrite := run_changeFiles (·.writeText p c.settings.fileText)
    { c with host := { c.host.flush with files := t } }
  dsimp only at hwrite
  rw [Files.Tree.writeText, hready.place.write] at hwrite
  have hrun := run_bind_ok (f := fun _ => state >>= fun c : Config =>
    changeFiles (·.writeText p c.settings.fileText)) hprepare
  rw [run_state_bind, hwrite] at hrun
  exact ⟨_, hrun, rfl, hp, hready.put _, hready.place.takes.node?_put _⟩

/-- What a save does at a path that can be written, with the log files elsewhere. -/
theorem run_save (hp : ((retarget path).run c).2.path = .text p) (ha : c.host.Admits p t r)
    (hapart : ∀ d ∈ c.host.handlers, d.IsApart r t) :
    ∃ d, (save path).run c = (.ok true, d) ∧ d.settings = c.settings ∧
      d.HoldsText p r c.settings.fileText := by
  have hretarget : (retarget path).run c = (.ok (), ((retarget path).run c).2) := rfl
  have hhost : ((retarget path).run c).2.host = c.host := by
    rw [retarget, Op.run_update]
    split <;> rfl
  have hsettings := (spares_retarget path).eq c
  generalize ((retarget path).run c).2 = c₁ at hp hretarget hhost hsettings
  rw [← hhost] at ha hapart
  rw [← hsettings]
  obtain ⟨d, hstore, hd, hholds⟩ := run_store ha hapart hp
  obtain ⟨said, hsay, hspared, halike⟩ := run_say .info s!"Settings saved to {p}" d
  refine ⟨said, ?_, hspared.trans hd, hholds.of_alike halike⟩
  rw [save, run_bind_ok hretarget, run_state_bind, hp, run_liftM_bind]
  dsimp only [Value.needText]
  rw [run_recover, run_bind_ok hstore, run_bind_ok hsay]
  rfl

/-! ## Loading -/

/-- A load reads the text of the file, and leaves the file as it is. -/
theorem run_readFile_holdsText (h : c.HoldsText p r s.fileText) :
    ∃ d, (readFile p).run c = (.ok (some s.fileText), d) ∧ d.settings = c.settings ∧
      d.HoldsText p r s.fileText := by
  have hprepare := run_changeFiles (·.prepare (Files.parent p)) c
  rw [h.ready.flush.place.prepare] at hprepare
  have hread : c.host.flush.flush.files.read p = .ok (Text.Utf8.encode s.fileText) :=
    h.flush.ready.read_flush h.flush.file
  have htext : c.host.flush.flush.flush.files.readText p = .ok s.fileText := h.flush.flush.readText
  have hrun : (readFile p).run c =
      ((if c.host.flush.flush.files.exists? p then
        (do return some (← (Host.readText p).on hostPart) : Op Config (Option String))
      else return none).run { c with host := c.host.flush.flush }) := by
    rw [readFile, run_bind_ok hprepare]
    rfl
  rw [if_pos (Files.Tree.exists?_of_read hread)] at hrun
  have hfound : ((Host.readText p).on hostPart).run { c with host := c.host.flush.flush } =
      (.ok s.fileText, { c with host := c.host.flush.flush.flush }) := by
    rw [← htext]
    rfl
  rw [run_bind_ok hfound] at hrun
  exact ⟨_, hrun, rfl, h.flush.flush.flush⟩

/-- A new configuration takes over the settings that its file holds. -/
theorem HoldsText.load (h : c.HoldsText p r s.fileText) (hs : s.Savable)
    (hc : c.settings = {}) :
    ∃ d, (load .null).run c = (.ok true, d) ∧
      d.settings = { s with firstRun := .bool false } ∧ d.HoldsText p r s.fileText := by
  have hretarget : ((retarget .null).run c).2 = c := rfl
  have hp : ((retarget .null).run c).2.path = .text p := h.path
  obtain ⟨d, hread, hd, hholds⟩ := run_readFile_holdsText h
  have hnone : ¬ Exceeds d.settings s.toEntries := by
    rintro ⟨q, v, ho, hx⟩
    rw [Settings.offered?_toEntries] at ho
    cases ho
    rw [hd, hc, Settings.exceeds_of_keeps (hs.keeps q)] at hx
    cases hx
  obtain ⟨hresult, htaken⟩ :=
    update_takenOver (Json.keyed_of_read hs.read_fileText) s.isProper_toEntries hnone
  have halike := onlyLogs_update s.toEntries d d (.refl d)
  generalize hu : ((update (.object s.toEntries)).run d).2 = e at htaken halike
  have hupdate : (update (.object s.toEntries)).run d = (.ok (), e) := Prod.ext hresult hu
  rw [hd, hc] at htaken
  obtain ⟨said, hsay, hspared, halike'⟩ := run_say .info s!"Settings loaded from {p}" e
  have htake : (takeText p s.fileText).run d = (.ok true, said) := by
    rw [takeText, hs.read_fileText]
    dsimp only
    rw [run_bind_ok hupdate, run_bind_ok hsay]
    rfl
  refine ⟨said, ?_, hspared.trans (htaken.eq_of_savable hs),
    (hholds.of_alike halike).of_alike halike'⟩
  rw [run_load hp, hretarget, run_recover, run_bind_ok hread, takeFile, htake]

/-- Settings with more behind them are refused. -/
theorem load_refuses (hs : s.Savable) {more : String} {x : Char} {xs : List Char}
    (hplain : more.toList.all fun c => c.toNat < 0x80 && c != '\r') (hmore : more.toList = x :: xs)
    (hblank : Json.isBlank x = false) (hends : Json.EndsNumber (x :: xs))
    (hp : ((retarget path).run c).2.path = .text p)
    (hr : c.host.flush.files.read p = .ok (Text.Utf8.encode (s.fileText ++ more))) :
    ((load path).run c).1 = .ok false := by
  obtain ⟨q, hread⟩ := Json.read_write_append Json.spaced_file (hs.fits_toEntries _) hmore hblank
    hends
  have htext : Files.textOf (Text.Utf8.encode (s.fileText ++ more)) = .ok (s.fileText ++ more) := by
    refine Files.textOf_encode ?_
    rw [String.toList_append, List.all_append, s.fileText_plain, hplain]
    rfl
  have hnone (es : Entries) : ¬ Holds (Text.Utf8.encode (s.fileText ++ more)) es := fun hes => by
    cases hread.symm.trans (hes.read_eq htext)
  have hsettles := load_settles hp hr (fun es hes => absurd hes (hnone es)) fun _ => ⟨_, htext, by
    rintro (⟨f, hf, hlimit⟩ | ⟨es, hes, -⟩)
    · cases hread.symm.trans hf
      cases hlimit
    · cases hread.symm.trans hes⟩
  generalize (load path).run c = result at hsettles
  cases hsettles with
  | refused hwhy hkept => rfl
  | loaded hholds htaken => exact absurd hholds (hnone _)

/-! ## Saving and loading -/

theorem eq_ok_of_toOption {ε : Type} {x : Except ε α} {a : α} (h : x.toOption = some a) :
    x = .ok a := by
  cases x with
  | error e => cases h
  | ok b =>
      cases h
      rfl

/-- Whether settings can be saved at a path, a new configuration loads them from there but for the
mark of the first run, and saving them again writes the same text but for that mark. -/
def LoadsBack (c : Config) (p : String) : Prop :=
  let saved := (save (.text p)).run c
  let fresh := (load .null).run (start saved.2.host (.text p))
  let again := (save .null).run fresh.2
  saved.1 = .ok true ∧ fresh.1 = .ok true ∧
    fresh.2.settings = { c.settings with firstRun := .bool false } ∧ again.1 = .ok true ∧
    ∃ front back b, c.settings.firstRun = .bool b ∧
      saved.2.host.flush.files.readText p = .ok (front ++ toString b ++ back) ∧
      again.2.host.flush.files.readText p = .ok (front ++ toString false ++ back)

/-- Settings that are saved at a path that can be written, with all log files elsewhere, are loaded
back from there. -/
theorem save_loads_back (hs : c.settings.Savable) (ha : c.host.Admits p t r)
    (hapart : ∀ d ∈ c.host.handlers, d.IsApart r t) : c.LoadsBack p := by
  have hne : p ≠ "" := ha.place.ne_empty
  have hset : (Value.text p).isSet = true := bne_iff_ne.mpr hne
  have hpath : ((retarget (.text p)).run c).2.path = .text p := by
    rw [retarget, Op.run_update, if_pos hset]
  obtain ⟨d, hsave, -, hholds⟩ := run_save hpath ha hapart
  have hstart : (start d.host (.text p)).HoldsText p r c.settings.fileText :=
    ⟨if_pos hset, hholds.ready, hholds.file⟩
  obtain ⟨e, hload, hsettings, hholds'⟩ := hstart.load hs rfl
  have hpath' : ((retarget .null).run e).2.path = .text p := hholds'.path
  obtain ⟨e', hagain, -, hholds''⟩ :=
    run_save hpath' hholds'.ready.admits hholds'.ready.apart_flush
  unfold LoadsBack
  intro saved fresh again
  have hsaved : saved = (.ok true, d) := hsave
  have hfresh : fresh = (.ok true, e) := by
    rw [← hload]
    exact congrArg (fun x : Except Fault Bool × Config =>
      (load .null).run (start x.2.host (.text p))) hsaved
  have hagain' : again = (.ok true, e') := by
    rw [← hagain]
    exact congrArg (fun x : Except Fault Bool × Config => (save .null).run x.2) hfresh
  rw [hsaved, hfresh, hagain']
  refine ⟨rfl, rfl, hsettings, rfl, ?_⟩
  obtain ⟨front, back, htext⟩ := Settings.fileText_firstRun c.settings
  obtain ⟨b, hb⟩ := Settings.exists_bool hs.firstRun
  have hread := hholds.readText
  have hread' := hholds''.readText
  have hself : ({ c.settings with firstRun := .bool b } : Settings) = c.settings := by rw [← hb]
  rw [← hself, htext] at hread
  rw [hsettings, htext] at hread'
  exact ⟨front, back, b, hb, hread, hread'⟩

/-- Settings with a text that needs escapes, to be saved into a directory that is not there, with a
log file that lacks a record. -/
def awkward : Config where
  host.files.root := "/home"
  host.handlers := [.console .info, .file .info "/home/log" (.int 10485760) (.int 5) 0]
  host.journal.records := [⟨.root, .info, "Logging to file: /home/log"⟩]
  path := .null
  settings.timeout := .float (.finite false (5 * 2 ^ 1073))
  settings.level := .text "\"\\\n\x01é😀"
  settings.logFilePath := .text "/home/log"
  settings.maxLogSize := .int (-7)

theorem savable_awkward : awkward.settings.Savable where
  declares k := by cases k <;> decide
  version := rfl
  firstRun := rfl
  survives q x hx := by
    cases q with
    | key k =>
        cases k <;> cases hx
        decide +kernel
    | version => cases hx
    | firstRun => cases hx
  short q n hn := by
    cases q with
    | key k => cases k <;> cases hn <;> decide
    | version => cases hn
    | firstRun => cases hn

theorem save_loads_back_awkward :
    let t := awkward.host.flush.files.put ["new"] .directory
    awkward.settings.Savable ∧ awkward.host.Admits "/home/new/file" t ["new", "file"] ∧
      (∀ d ∈ awkward.host.handlers, d.IsApart ["new", "file"] t) ∧
      awkward.LoadsBack "/home/new/file" := by
  intro t
  have ha : awkward.host.Admits "/home/new/file" t ["new", "file"] :=
    ⟨eq_ok_of_toOption (by decide +kernel), by decide +kernel, by decide +kernel,
      .inl (by decide +kernel)⟩
  have hapart : ∀ d ∈ awkward.host.handlers, d.IsApart ["new", "file"] t := by
    intro d hd path hpath
    rcases List.mem_cons.mp hd with rfl | hd
    · cases hpath
    · cases List.mem_singleton.mp hd
      cases hpath
      decide +kernel
  exact ⟨savable_awkward, ha, hapart, save_loads_back savable_awkward ha hapart⟩

/-- The same settings with their log in the file that they are saved in. -/
def loggedOver : Config :=
  { awkward with
    host.files.nodes := [(["conf"], .directory)]
    host.handlers := [.file .info "/home/conf/file" (.int 10485760) (.int 5) 1] }

/-- A log in the file of the settings stops them from being loaded back. -/
theorem save_not_loaded_back :
    loggedOver.settings.Savable ∧
      loggedOver.host.Admits "/home/conf/file" loggedOver.host.flush.files ["conf", "file"] ∧
      ¬ loggedOver.LoadsBack "/home/conf/file" := by
  have hs : loggedOver.settings.Savable := savable_awkward
  have ha : loggedOver.host.Admits "/home/conf/file" loggedOver.host.flush.files
      ["conf", "file"] :=
    ⟨eq_ok_of_toOption (by decide +kernel), by decide +kernel, by decide +kernel,
      .inr ⟨[], by decide +kernel⟩⟩
  refine ⟨hs, ha, fun h => ?_⟩
  have hread : (start ((save (.text "/home/conf/file")).run loggedOver).2.host
      (.text "/home/conf/file")).host.flush.files.read "/home/conf/file" =
      .ok (Text.Utf8.encode (loggedOver.settings.fileText ++
        "settings - INFO - Settings saved to /home/conf/file\n")) := by
    rw [Text.Utf8.encode_append]
    exact rfl
  have hrefused : ((load .null).run (start ((save (.text "/home/conf/file")).run loggedOver).2.host
      (.text "/home/conf/file"))).1 = .ok false :=
    load_refuses hs (by decide) rfl (by decide) (Json.endsNumber_cons (by decide) _) rfl hread
  cases hrefused.symm.trans h.2.1

end Config

end Cockpit
