import Cockpit.Proofs.Files.Extending

/-!
# Where paths lead

A file that is written changes no directory and no link.  So every path leads where it led before,
and what is at other routes stays (`Tree.find_put_file`).

`Host.Admits` says that a file can be written at a path, once the directory around it is made.
`Host.Ready` says that it is made, and that no log file is at the route of the path.  Bringing the
log files up to date then leaves the route alone (`Host.Ready.flush`).
-/

namespace Cockpit

namespace Files

/-- The route that a path leads to. -/
def Spot.route : Spot → Route
  | .present r _ => r
  | .absent r => r

/-- What is found instead once a file was written at a route. -/
def Spot.written (r : Route) (bytes : List UInt8) (spot : Spot) : Spot :=
  if spot.route = r then .present r (.file bytes) else spot

/-- What becomes of where a path leads when a file is written at a route. -/
inductive Follows (r : Route) (bytes : List UInt8) :
    Except FileCause Spot → Except FileCause Spot → Prop where
  | led (spot : Spot) : Follows r bytes (.ok spot) (.ok (spot.written r bytes))
  | refused (c c' : FileCause) : Follows r bytes (.error c) (.error c')

namespace Tree

variable {t t' t'' : Tree} {r here : Route} {n path : String} {ns : List String}
  {followLast : Bool} {bytes : List UInt8} {fuel : Nat}

/-- Whether a file is at a route, or nothing. -/
def TakesFile (t : Tree) (r : Route) : Prop :=
  t.node? r = none ∨ ∃ bytes, t.node? r = some (.file bytes)

/-- Whether a route and all above it are directories. -/
def Within (t : Tree) (here : Route) : Prop := ∀ k, t.node? (here.take k) = some .directory

theorem within_nil (t : Tree) : t.Within [] := fun _ => by
  rw [List.take_nil]
  rfl

theorem Within.self (h : t.Within here) : t.node? here = some .directory := by
  have hall := h here.length
  rwa [List.take_length] at hall

theorem Within.dropLast (h : t.Within here) : t.Within here.dropLast := fun k => by
  rw [List.dropLast_eq_take, List.take_take]
  exact h _

theorem Within.append (h : t.Within here) (hn : t.node? (here ++ [n]) = some .directory) :
    t.Within (here ++ [n]) := by
  intro k
  rcases Nat.lt_or_ge here.length k with hk | hk
  · rw [List.take_of_length_le (by rw [List.length_append]; exact hk)]
    exact hn
  · rw [List.take_append_of_le_length hk]
    exact h k

/-! ## Writing a file -/

theorem TakesFile.ne (hr : t.TakesFile r) (h : t.node? here = some .directory) : here ≠ r := by
  rintro rfl
  rcases hr with hr | ⟨_, hr⟩
  · cases h.symm.trans hr
  · cases h.symm.trans hr

theorem TakesFile.ne_nil (hr : t.TakesFile r) : r.isEmpty = false :=
  Bool.of_not_eq_true fun he => hr.ne (t.within_nil.self) (List.isEmpty_iff.mp he).symm

theorem TakesFile.node?_put (hr : t.TakesFile r) (bytes : List UInt8) :
    (t.put r (.file bytes)).node? r = some (.file bytes) := by
  rw [node?_put_self, if_neg (by rw [hr.ne_nil]; exact Bool.false_ne_true)]

/-- A walk that goes on behind a file fails. -/
theorem walk_of_file (followLast : Bool) (fuel : Nat) (h : t.node? here = some (.file bytes))
    (hns : ns ≠ []) : ∃ c, t.walk followLast fuel here ns = .error c := by
  cases fuel with
  | zero => exact ⟨.loop, rfl⟩
  | succ fuel =>
      cases ns with
      | nil => exact absurd rfl hns
      | cons n ns =>
          refine ⟨.notDirectory, ?_⟩
          rw [walk, h]
          rfl

theorem follows_same {spot : Spot} (h : spot.route ≠ r) :
    Follows r bytes (.ok spot) (.ok spot) := by
  have hw : Follows r bytes (.ok spot) (.ok (spot.written r bytes)) := .led spot
  rwa [Spot.written, if_neg h] at hw

theorem follows_file {spot : Spot} (h : spot.route = r) :
    Follows r bytes (.ok spot) (.ok (.present r (.file bytes))) := by
  have hw : Follows r bytes (.ok spot) (.ok (spot.written r bytes)) := .led spot
  rwa [Spot.written, if_pos h] at hw

/-- Behind a file no walk goes on, whatever the file holds. -/
theorem follows_behind {b b' : List UInt8} (h : t.node? here = some (.file b))
    (h' : t'.node? here = some (.file b')) (hns : ns ≠ []) :
    Follows r bytes (t.walk followLast fuel here ns) (t'.walk followLast fuel here ns) := by
  obtain ⟨c, hc⟩ := walk_of_file followLast fuel h hns
  obtain ⟨c', hc'⟩ := walk_of_file followLast fuel h' hns
  rw [hc, hc']
  exact .refused c c'

/-- What a walk does at a name in a directory. -/
def enter (t : Tree) (followLast : Bool) (fuel : Nat) (here : Route) (n : String)
    (rest : List String) : Except FileCause Spot :=
  match t.node? (here ++ [n]) with
  | none => if rest.isEmpty then .ok (.absent (here ++ [n])) else .error .missing
  | some (.link target) =>
    if rest.isEmpty && !followLast then .ok (.present (here ++ [n]) (.link target))
    else match t.names? target with
      | none => .error .missing
      | some (fromRoot, more) =>
        walk t followLast fuel (if fromRoot then [] else here) (more ++ rest)
  | some m =>
    if rest.isEmpty then .ok (.present (here ++ [n]) m)
    else walk t followLast fuel (here ++ [n]) rest

theorem walk_cons (h : t.node? here = some .directory) (rest : List String) :
    t.walk followLast (fuel + 1) here (n :: rest) =
      if nameLimit < (Text.Utf8.encode n).length then .error .nameTooLong
      else if n = "." then t.walk followLast fuel here rest
      else if n = ".." then t.walk followLast fuel here.dropLast rest
      else t.enter followLast fuel here n rest := by
  rw [walk, if_neg (not_not_intro h)]
  rfl

/-- A walk that comes to the file ends there, or fails as there is nothing behind it. -/
theorem enter_put_self (hr : t.TakesFile r) (bytes : List UInt8) (hlast : here ++ [n] = r)
    (rest : List String) :
    Follows r bytes (t.enter followLast fuel here n rest)
      ((t.put r (.file bytes)).enter followLast fuel here n rest) := by
  have hput := hr.node?_put bytes
  rw [enter, enter, hlast, hput]
  cases rest with
  | nil =>
      rcases hr with hn | ⟨b, hb⟩
      · rw [hn]
        exact follows_file rfl
      · rw [hb]
        exact follows_file rfl
  | cons m rest =>
      rcases hr with hn | ⟨b, hb⟩
      · rw [hn]
        obtain ⟨c', hc'⟩ := walk_of_file followLast fuel hput (List.cons_ne_nil m rest)
        exact hc' ▸ .refused .missing c'
      · rw [hb]
        exact follows_behind hb hput (List.cons_ne_nil m rest)

/-- A walk that comes to something else goes on as before. -/
theorem enter_put_of_ne (bytes : List UInt8) (hhere : t.Within here) (hlast : here ++ [n] ≠ r)
    (ih : ∀ {here : Route}, t.Within here → ∀ ns, Follows r bytes
      (t.walk followLast fuel here ns) ((t.put r (.file bytes)).walk followLast fuel here ns))
    (rest : List String) :
    Follows r bytes (t.enter followLast fuel here n rest)
      ((t.put r (.file bytes)).enter followLast fuel here n rest) := by
  have hsame : (t.put r (.file bytes)).node? (here ++ [n]) = t.node? (here ++ [n]) :=
    node?_put_of_ne t _ hlast
  have hnames (path : String) : (t.put r (.file bytes)).names? path = t.names? path := rfl
  rw [enter, enter, hsame]
  cases hm : t.node? (here ++ [n]) with
  | none =>
      cases rest with
      | nil => exact follows_same hlast
      | cons m rest => exact .refused _ _
  | some node =>
      cases node with
      | directory =>
          cases rest with
          | nil => exact follows_same hlast
          | cons m rest => exact ih (hhere.append hm) (m :: rest)
      | file b =>
          cases rest with
          | nil => exact follows_same hlast
          | cons m rest => exact follows_behind hm (hsame.trans hm) (List.cons_ne_nil m rest)
      | link target =>
          dsimp only
          split
          · exact follows_same hlast
          · rw [hnames]
            cases t.names? target with
            | none => exact .refused _ _
            | some more =>
                obtain ⟨fromRoot, more⟩ := more
                cases fromRoot with
                | true => exact ih t.within_nil (more ++ rest)
                | false => exact ih hhere (more ++ rest)

theorem walk_put_file (hr : t.TakesFile r) (bytes : List UInt8) (followLast : Bool) (fuel : Nat)
    (hhere : t.Within here) (ns : List String) :
    Follows r bytes (t.walk followLast fuel here ns)
      ((t.put r (.file bytes)).walk followLast fuel here ns) := by
  induction fuel generalizing here ns with
  | zero => exact .refused _ _
  | succ fuel ih =>
      have hne := hr.ne hhere.self
      have hdir : (t.put r (.file bytes)).node? here = some .directory :=
        (node?_put_of_ne t _ hne).trans hhere.self
      cases ns with
      | nil =>
          rw [walk, walk, hhere.self, hdir]
          exact follows_same hne
      | cons n rest =>
          rw [walk_cons hhere.self, walk_cons hdir]
          split
          · exact .refused _ _
          split
          · exact ih hhere rest
          split
          · exact ih hhere.dropLast rest
          by_cases hlast : here ++ [n] = r
          · exact enter_put_self hr bytes hlast rest
          · exact enter_put_of_ne bytes hhere hlast ih rest

/-- Writing a file leaves every path where it leads. -/
theorem find_put_file (hr : t.TakesFile r) (bytes : List UInt8) (path : String)
    (followLast : Bool) :
    Follows r bytes (t.find path followLast) ((t.put r (.file bytes)).find path followLast) := by
  have hnames : (t.put r (.file bytes)).names? path = t.names? path := rfl
  rw [find, find]
  split
  · exact .refused _ _
  · split
    · exact .refused _ _
    · rw [hnames]
      cases t.names? path with
      | none => exact .refused _ _
      | some ns => exact walk_put_file hr bytes followLast walkLimit t.within_nil ns.2

/-! ## Routes of paths -/

/-- The route that a path leads to, if it leads anywhere. -/
def route? (t : Tree) (path : String) : Option Route :=
  match t.find path with
  | .ok spot => some spot.route
  | .error _ => none

/-- Whether a tree agrees with another one on where paths lead, on which paths are directories,
and on what is at a route. -/
structure Undisturbed (r : Route) (t t' : Tree) : Prop where
  route : ∀ path, t'.route? path = t.route? path
  directory : ∀ path, t'.isDirectory path = t.isDirectory path
  node : t'.node? r = t.node? r

theorem Undisturbed.refl (r : Route) (t : Tree) : Undisturbed r t t :=
  ⟨fun _ => rfl, fun _ => rfl, rfl⟩

theorem Undisturbed.trans (h : Undisturbed r t t') (h' : Undisturbed r t' t'') :
    Undisturbed r t t'' :=
  ⟨fun path => (h'.route path).trans (h.route path),
    fun path => (h'.directory path).trans (h.directory path), h'.node.trans h.node⟩

theorem route?_put_file (hr : t.TakesFile r) (bytes : List UInt8) (path : String) :
    (t.put r (.file bytes)).route? path = t.route? path := by
  have hfollows := find_put_file hr bytes path true
  rw [route?, route?]
  generalize t.find path = found at hfollows
  generalize (t.put r (.file bytes)).find path = found' at hfollows
  cases hfollows with
  | refused c c' => rfl
  | led spot =>
      by_cases h : spot.route = r
      · rw [Spot.written, if_pos h, ← h]
        rfl
      · rw [Spot.written, if_neg h]

theorem isDirectory_put_file (hr : t.TakesFile r) (bytes : List UInt8) (path : String) :
    (t.put r (.file bytes)).isDirectory path = t.isDirectory path := by
  have hfollows := find_put_file hr bytes path true
  have hends := find_ends t path true
  rw [isDirectory, isDirectory]
  generalize t.find path = found at hfollows hends
  generalize (t.put r (.file bytes)).find path = found' at hfollows
  cases hfollows with
  | refused c c' => rfl
  | led spot =>
      by_cases h : spot.route = r
      · rw [Spot.written, if_pos h]
        -- At the route of a file there is no directory.
        cases spot with
        | absent r' => rfl
        | present r' m =>
            cases m with
            | directory => exact absurd h (hr.ne hends.2)
            | file b => rfl
            | link target => rfl
      · rw [Spot.written, if_neg h]

/-- A file elsewhere disturbs nothing. -/
theorem undisturbed_put {r' : Route} (hr : t.TakesFile r') (h : r ≠ r') (bytes : List UInt8) :
    Undisturbed r t (t.put r' (.file bytes)) :=
  ⟨route?_put_file hr bytes, isDirectory_put_file hr bytes, node?_put_of_ne t _ h⟩

/-! ## Files at routes -/

/-- The bytes at a route, none without a file. -/
def bytesAt (t : Tree) (r : Route) : List UInt8 :=
  match t.node? r with
  | some (.file bytes) => bytes
  | _ => []

/-- A file is written where its path leads. -/
theorem change_eq (h : t.route? path = some r) (hr : t.TakesFile r)
    (f : List UInt8 → List UInt8) : t.change path f = .ok (t.put r (.file (f (t.bytesAt r)))) := by
  have hends := find_ends t path true
  rw [route?] at h
  rw [change, bytesAt]
  cases hf : t.find path with
  | error c =>
      rw [hf] at h
      cases h
  | ok spot =>
      rw [hf] at h hends
      cases h
      cases spot with
      | absent r =>
          have hnone : t.node? r = none := hends
          show Except.ok _ = Except.ok _
          rw [show (Spot.absent r).route = r from rfl, hnone]
      | present r m =>
          have hm : t.node? r = some m := hends.2
          rcases hr with hr | ⟨b, hr⟩
          · cases hm.symm.trans hr
          · cases hm.symm.trans hr
            show Except.ok _ = Except.ok _
            rw [show (Spot.present r (Node.file b)).route = r from rfl, hm]

/-- What a change of a file does. -/
theorem change_eq_ok {f : List UInt8 → List UInt8} (h : t.change path f = .ok t') :
    ∃ r bytes, t.route? path = some r ∧ t.TakesFile r ∧ t' = t.put r (.file bytes) := by
  have hends := find_ends t path true
  rw [change] at h
  rw [route?]
  split at h
  · rename_i r bytes hf
    rw [hf] at hends ⊢
    cases h
    exact ⟨r, _, rfl, .inr ⟨bytes, hends.2⟩, rfl⟩
  · cases h
  · rename_i r hf
    rw [hf] at hends ⊢
    cases h
    exact ⟨r, _, rfl, .inl hends, rfl⟩
  · cases h

/-- A file is read where its path leads. -/
theorem read_eq (h : t.route? path = some r) (hn : t.node? r = some (.file bytes)) :
    t.read path = .ok bytes := by
  have hends := find_ends t path true
  rw [route?] at h
  rw [read]
  cases hf : t.find path with
  | error c =>
      rw [hf] at h
      cases h
  | ok spot =>
      rw [hf] at h hends
      cases h
      cases spot with
      | absent r => cases hn.symm.trans hends
      | present r m =>
          cases hends.2.symm.trans hn
          rfl

/-- A path that leads to where nothing is finds nothing. -/
theorem exists?_eq_false (h : t.route? path = some r) (hn : t.node? r = none) :
    t.exists? path = false := by
  have hends := find_ends t path true
  rw [route?] at h
  rw [exists?]
  cases hf : t.find path with
  | error c => rfl
  | ok spot =>
      rw [hf] at h hends
      cases h
      cases spot with
      | absent r => rfl
      | present r m => cases hn.symm.trans hends.2

/-- Whether a file can be at a path that leads to a route, in a directory that is there. -/
structure HasPlace (t : Tree) (path : String) (r : Route) : Prop where
  directory : t.isDirectory (parent path) = true
  route : t.route? path = some r
  takes : t.TakesFile r

theorem HasPlace.of_undisturbed (h : t.HasPlace path r) (hu : Undisturbed r t t') :
    t'.HasPlace path r := by
  refine ⟨(hu.directory _).trans h.directory, (hu.route _).trans h.route, ?_⟩
  rw [TakesFile, hu.node]
  exact h.takes

theorem HasPlace.put (h : t.HasPlace path r) (bytes : List UInt8) :
    (t.put r (.file bytes)).HasPlace path r where
  directory := (isDirectory_put_file h.takes bytes _).trans h.directory
  route := (route?_put_file h.takes bytes _).trans h.route
  takes := .inr ⟨bytes, h.takes.node?_put bytes⟩

theorem HasPlace.ne_empty (h : t.HasPlace path r) : path ≠ "" := by
  rintro rfl
  cases h.route

/-- The directory need not be made. -/
theorem HasPlace.prepare (h : t.HasPlace path r) : t.prepare (parent path) = .ok t := by
  rw [Tree.prepare, if_pos h.directory]

/-- A directory without a name cannot be made. -/
theorem prepare_empty (t : Tree) : t.prepare "" = .error (.file .missing "") := rfl

theorem HasPlace.write (h : t.HasPlace path r) (bytes : List UInt8) :
    t.write path bytes = .ok (t.put r (.file bytes)) := change_eq h.route h.takes _

end Tree

end Files

/-! ## Log files apart -/

open Files (Route)
open Files.Tree (Undisturbed)

variable {h h' : Host} {d : Handler} {p : String} {r : Route} {t t' : Files.Tree}

namespace Handler

/-- The path of a log file. -/
def path? : Handler → Option String
  | .console _ => none
  | .file _ path _ _ _ => some path

/-- Whether a handler writes no log at a route. -/
def IsApart (r : Route) (t : Files.Tree) (d : Handler) : Prop :=
  ∀ path, d.path? = some path → t.route? path ≠ some r

theorem path?_upTo (d : Handler) (n : Nat) : (d.upTo n).path? = d.path? := by cases d <;> rfl

theorem IsApart.of_undisturbed (h : d.IsApart r t) (hu : Undisturbed r t t') : d.IsApart r t' := by
  intro path hpath
  rw [hu.route]
  exact h path hpath

/-- A log that is written elsewhere leaves a route alone. -/
theorem IsApart.undisturbed_catchUp (h : d.IsApart r t) (rs : List Log.Record) :
    Undisturbed r t (d.catchUp rs t) := by
  cases d with
  | console l => exact .refl r t
  | file l path maxBytes backups done =>
      rw [catchUp]
      split
      · rename_i happend
        obtain ⟨r', bytes, hroute, htakes, rfl⟩ := Files.Tree.change_eq_ok happend
        refine Files.Tree.undisturbed_put htakes (fun he => ?_) bytes
        exact h path rfl (he ▸ hroute)
      · exact .refl r t

end Handler

namespace Host

/-- Bringing log files up to date leaves a route alone where none of them is. -/
theorem undisturbed_flush (hapart : ∀ d ∈ h.handlers, d.IsApart r h.files) :
    Undisturbed r h.files h.flush.files := by
  have all (ds : List Handler) (t : Files.Tree) (hds : ∀ d ∈ ds, d.IsApart r t) :
      Undisturbed r t (ds.foldl (fun t d => d.catchUp h.journal.records t) t) := by
    induction ds generalizing t with
    | nil => exact .refl r t
    | cons d ds ih =>
        have hd := (hds d List.mem_cons_self).undisturbed_catchUp h.journal.records
        refine hd.trans (ih _ fun d' hd' => ?_)
        exact (hds d' (List.mem_cons_of_mem d hd')).of_undisturbed hd
  exact all h.handlers h.files hapart

/-- Whether a file can be at a path that leads to a route, and no log file is there. -/
structure Ready (h : Host) (p : String) (r : Route) : Prop where
  place : h.files.HasPlace p r
  apart : ∀ d ∈ h.handlers, d.IsApart r h.files

theorem Ready.flush (hr : h.Ready p r) : h.flush.Ready p r := by
  have hu := undisturbed_flush hr.apart
  refine ⟨hr.place.of_undisturbed hu, fun d' hd' => ?_⟩
  obtain ⟨d, hd, rfl⟩ := List.mem_map.mp hd'
  intro path hpath
  rw [d.path?_upTo] at hpath
  exact (hr.apart d hd).of_undisturbed hu path hpath

/-- What a host holds at the route of a path, once its log files are up to date. -/
theorem Ready.read_flush {bytes : List UInt8} (hr : h.Ready p r)
    (hn : h.files.node? r = some (.file bytes)) : h.flush.files.read p = .ok bytes := by
  refine Files.Tree.read_eq hr.flush.place.route ?_
  rw [(undisturbed_flush hr.apart).node]
  exact hn

theorem Ready.put (hr : h.Ready p r) (bytes : List UInt8) :
    ({ h with files := h.files.put r (.file bytes) } : Host).Ready p r := by
  refine ⟨hr.place.put bytes, fun d hd path hpath => ?_⟩
  rw [Files.Tree.route?_put_file hr.place.takes]
  exact hr.apart d hd path hpath

/-- Whether a file can be written at a path: its directory can be made, and the path then leads to
a route for a file. -/
structure Admits (h : Host) (p : String) (t : Files.Tree) (r : Route) : Prop where
  prepared : h.flush.files.prepare (Files.parent p) = .ok t
  place : t.HasPlace p r

theorem Admits.ready (ha : h.Admits p t r) (hapart : ∀ d ∈ h.handlers, d.IsApart r t) :
    ({ h.flush with files := t } : Host).Ready p r := by
  refine ⟨ha.place, fun d' hd' path hpath => ?_⟩
  obtain ⟨d, hd, rfl⟩ := List.mem_map.mp hd'
  exact hapart d hd path (d.path?_upTo _ ▸ hpath)

/-- A path at which a file can be written names a directory. -/
theorem Admits.parent_ne_empty (ha : h.Admits p t r) : Files.parent p ≠ "" := by
  intro hparent
  have hprepared := ha.prepared
  rw [hparent, Files.Tree.prepare_empty] at hprepared
  cases hprepared

theorem Ready.admits (hr : h.Ready p r) : h.Admits p h.flush.files r :=
  ⟨hr.flush.place.prepare, hr.flush.place⟩

theorem Ready.apart_flush (hr : h.Ready p r) : ∀ d ∈ h.handlers, d.IsApart r h.flush.files :=
  fun d hd => (hr.apart d hd).of_undisturbed (undisturbed_flush hr.apart)

end Host

end Cockpit
