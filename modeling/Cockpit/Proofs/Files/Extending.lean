import Cockpit.Host

/-!
# Trees that extend others

`Tree.Extends t t'` says that `t'` has everything that `t` has, with the bytes of every file as
they are.  What a path leads to in `t` it then leads to in `t'`, so every file can be read as
before (`Tree.Extends.read`).

Making directories extends a tree, and so does writing log files that lack no record
(`Host.IsFlushed.extends_flush`).  A path without null characters is refused by the system alone
(`Tree.prepare_isTransport`).
-/

namespace Cockpit

namespace Files.Tree

variable {t t' t'' : Tree} {path : String} {r here : Route} {n : Node} {ns : List String}
  {followLast : Bool}

/-! ## Nodes -/

/-- Whether a tree has everything that another one has. -/
structure Extends (t t' : Tree) : Prop where
  root : t'.root = t.root
  node : ∀ r n, t.node? r = some n → t'.node? r = some n

theorem Extends.refl (t : Tree) : Extends t t := ⟨rfl, fun _ _ h => h⟩

theorem Extends.trans (h : Extends t t') (h' : Extends t' t'') : Extends t t'' :=
  ⟨h'.root.trans h.root, fun r n hn => h'.node r n (h.node r n hn)⟩

theorem lookup_filter_of_ne {nodes : List (Route × Node)} {r' : Route} (h : r' ≠ r) :
    (nodes.filter (·.1 ≠ r)).lookup r' = nodes.lookup r' := by
  induction nodes with
  | nil => rfl
  | cons e es ih =>
      obtain ⟨k, m⟩ := e
      by_cases hk : k = r
      · subst hk
        have hb : (r' == k) = false := by simpa using h
        simpa [List.lookup_cons, hb] using ih
      · simp only [List.filter_cons, decide_not, hk, decide_false, Bool.not_false, if_true,
          List.lookup_cons]
        cases r' == k with
        | true => rfl
        | false => simpa using ih

theorem node?_put_of_ne (t : Tree) (n : Node) {r' : Route} (h : r' ≠ r) :
    (t.put r n).node? r' = t.node? r' := by
  have hb : (r' == r) = false := by simpa using h
  unfold node? put
  simp only [List.lookup_cons, hb, lookup_filter_of_ne h]

/-- The top of a tree is a directory, and any other route leads to what was put there. -/
theorem node?_put_self (t : Tree) (r : Route) (n : Node) :
    (t.put r n).node? r = if r.isEmpty then some .directory else some n := by
  unfold node? put
  simp

/-- A node where there was none, and one that was there already, extend a tree. -/
theorem extends_put (h : ∀ m, t.node? r = some m → m = n) : Extends t (t.put r n) where
  root := rfl
  node r' m hm := by
    by_cases he : r' = r
    · subst he
      rw [node?_put_self]
      split
      · rw [node?, if_pos ‹_›] at hm
        exact hm
      · rw [h m hm]
    · rw [node?_put_of_ne t n he, hm]

/-! ## Walks -/

/-- What a path of names means depends on the top of a tree alone. -/
theorem Extends.names? (h : Extends t t') (path : String) : t'.names? path = t.names? path := by
  simp only [Tree.names?, belowRoot?, h.root]

/-- What a walk does at a name.  It fails, or ends where nothing is, or ends at a node, or goes
on.  Where it does not fail it finds or misses the node in the tree, and in every tree that
extends it the walk ends at the same node or goes on in the same way. -/
theorem walk_cons_cases (t : Tree) (followLast : Bool) (fuel : Nat) (here : Route) (n : String)
    (ns : List String) :
    (∃ c, c.isSystem = true ∧ t.walk followLast (fuel + 1) here (n :: ns) = .error c) ∨
    (t.node? (here ++ [n]) = none ∧
      t.walk followLast (fuel + 1) here (n :: ns) = .ok (.absent (here ++ [n]))) ∨
    (∃ m, t.node? (here ++ [n]) = some m ∧ ∀ t', Extends t t' →
      t'.walk followLast (fuel + 1) here (n :: ns) = .ok (.present (here ++ [n]) m)) ∨
    (∃ here' ns', ∀ t', Extends t t' →
      t'.walk followLast (fuel + 1) here (n :: ns) = t'.walk followLast fuel here' ns') := by
  by_cases hdir : t.node? here = some .directory
  case neg => exact Or.inl ⟨.notDirectory, rfl, by simp [walk, hdir]⟩
  by_cases hshort : nameLimit < (Text.Utf8.encode n).length
  case pos => exact Or.inl ⟨.nameTooLong, rfl, by simp [walk, hdir, hshort]⟩
  by_cases hdot : n = "."
  case pos =>
    refine Or.inr (Or.inr (Or.inr ⟨here, ns, fun t' h => ?_⟩))
    rw [walk, if_neg (fun hne => hne (h.node _ _ hdir)), if_neg hshort, if_pos hdot]
  by_cases hdots : n = ".."
  case pos =>
    refine Or.inr (Or.inr (Or.inr ⟨here.dropLast, ns, fun t' h => ?_⟩))
    rw [walk, if_neg (fun hne => hne (h.node _ _ hdir)), if_neg hshort, if_neg hdot, if_pos hdots]
  cases hm : t.node? (here ++ [n]) with
  | none =>
      cases ns with
      | nil => exact Or.inr (Or.inl ⟨rfl, by simp [walk, hdir, hshort, hdot, hdots, hm]⟩)
      | cons n' ns => exact Or.inl ⟨.missing, rfl, by simp [walk, hdir, hshort, hdot, hdots, hm]⟩
  | some m =>
      have enters {t' : Tree} (h : Extends t t') : t'.node? here = some .directory ∧
          t'.node? (here ++ [n]) = some m := ⟨h.node _ _ hdir, h.node _ _ hm⟩
      cases m with
      | directory =>
          cases ns with
          | nil =>
              refine Or.inr (Or.inr (Or.inl ⟨.directory, rfl, fun t' h => ?_⟩))
              simp [walk, enters h, hshort, hdot, hdots]
          | cons n' ns =>
              refine Or.inr (Or.inr (Or.inr ⟨here ++ [n], n' :: ns, fun t' h => ?_⟩))
              simp [walk, enters h, hshort, hdot, hdots]
      | file bytes =>
          cases ns with
          | nil =>
              refine Or.inr (Or.inr (Or.inl ⟨.file bytes, rfl, fun t' h => ?_⟩))
              simp [walk, enters h, hshort, hdot, hdots]
          | cons n' ns =>
              refine Or.inr (Or.inr (Or.inr ⟨here ++ [n], n' :: ns, fun t' h => ?_⟩))
              simp [walk, enters h, hshort, hdot, hdots]
      | link target =>
          by_cases hlast : ns.isEmpty && !followLast
          · refine Or.inr (Or.inr (Or.inl ⟨.link target, rfl, fun t' h => ?_⟩))
            simp only [walk, enters h, hshort, hdot, hdots, hlast, ne_eq, not_true_eq_false,
              if_false, if_true]
          · cases hnames : t.names? target with
            | none =>
                refine Or.inl ⟨.missing, rfl, ?_⟩
                simp only [walk, hdir, hm, hshort, hdot, hdots, hlast, hnames, ne_eq,
                  not_true_eq_false, if_false, Bool.false_eq_true]
            | some more =>
                refine Or.inr (Or.inr (Or.inr ⟨if more.1 then [] else here, more.2 ++ ns,
                  fun t' h => ?_⟩))
                simp only [walk, enters h, hshort, hdot, hdots, hlast, h.names?, hnames, ne_eq,
                  not_true_eq_false, if_false, Bool.false_eq_true]

/-- A walk that leads to a node in a tree leads to it in every tree that extends it. -/
theorem Extends.walk (h : Extends t t') (fuel : Nat) {m : Node}
    (hw : t.walk followLast fuel here ns = .ok (.present r m)) :
    t'.walk followLast fuel here ns = .ok (.present r m) := by
  induction fuel generalizing here ns with
  | zero => cases hw
  | succ fuel ih =>
      cases ns with
      | nil =>
          rw [Tree.walk] at hw ⊢
          cases hn : t.node? here with
          | none => rw [hn] at hw; cases hw
          | some m' => rw [hn] at hw; rw [h.node _ _ hn]; exact hw
      | cons n ns =>
          rcases walk_cons_cases t followLast fuel here n ns with
            ⟨c, -, he⟩ | ⟨-, he⟩ | ⟨m', -, he⟩ | ⟨here', ns', he⟩
          · cases he.symm.trans hw
          · cases he.symm.trans hw
          · cases (he t (.refl t)).symm.trans hw
            exact he t' h
          · rw [he t (.refl t)] at hw
            rw [he t' h]
            exact ih hw

/-- Where a walk ends: at the node that is there, or where none is.  If it fails, the system
refuses it. -/
theorem walk_ends (t : Tree) (followLast : Bool) (fuel : Nat) (here : Route) (ns : List String) :
    match t.walk followLast fuel here ns with
    | .ok (.present r m) => t.node? r = some m
    | .ok (.absent r) => t.node? r = none
    | .error c => c.isSystem = true := by
  induction fuel generalizing here ns with
  | zero => rfl
  | succ fuel ih =>
      cases ns with
      | nil =>
          rw [walk]
          cases hn : t.node? here with
          | none => rfl
          | some m => exact hn
      | cons n ns =>
          rcases walk_cons_cases t followLast fuel here n ns with
            ⟨c, hc, he⟩ | ⟨hn, he⟩ | ⟨m, hn, he⟩ | ⟨here', ns', he⟩
          · rw [he]; exact hc
          · rw [he]; exact hn
          · rw [he t (.refl t)]; exact hn
          · rw [he t (.refl t)]; exact ih here' ns'

/-! ## Paths -/

/-- Whether a path holds no null character. -/
def IsPlain (path : String) : Prop := '\x00' ∉ path.toList

theorem Extends.find (h : Extends t t') {m : Node}
    (hf : t.find path followLast = .ok (.present r m)) :
    t'.find path followLast = .ok (.present r m) := by
  unfold Tree.find at hf ⊢
  rw [h.names?]
  split at hf
  · cases hf
  · rw [if_neg ‹_›]
    split at hf
    · cases hf
    · rw [if_neg ‹_›]
      split at hf
      · exact h.walk _ hf
      · cases hf

/-- Where a path leads: to the node that is there, or where none is.  If it leads nowhere and
holds no null character, the system refuses it. -/
theorem find_ends (t : Tree) (path : String) (followLast : Bool) :
    match t.find path followLast with
    | .ok (.present r m) => IsPlain path ∧ t.node? r = some m
    | .ok (.absent r) => t.node? r = none
    | .error c => IsPlain path → c.isSystem = true := by
  by_cases hplain : '\x00' ∈ path.toList
  · rw [find, if_pos hplain]
    exact fun h => absurd hplain h
  rw [find, if_neg hplain]
  by_cases hempty : path = ""
  · rw [if_pos hempty]
    exact fun _ => rfl
  rw [if_neg hempty]
  cases t.names? path with
  | none => exact fun _ => rfl
  | some ns =>
      have h := walk_ends t followLast walkLimit [] ns.2
      dsimp only
      cases hw : t.walk followLast walkLimit [] ns.2 with
      | error c => rw [hw] at h; exact fun _ => h
      | ok spot =>
          rw [hw] at h
          cases spot with
          | present r m => exact ⟨hplain, h⟩
          | absent r => exact h

/-- What can be read in a tree can be read in every tree that extends it. -/
theorem Extends.read (h : Extends t t') {bytes : List UInt8} (hr : t.read path = .ok bytes) :
    t'.read path = .ok bytes := by
  unfold Tree.read at hr ⊢
  split at hr
  · rw [h.find ‹_›]; exact hr
  · cases hr
  · cases hr
  · cases hr

/-- A path that can be read holds no null character. -/
theorem isPlain_of_read {bytes : List UInt8} (hr : t.read path = .ok bytes) : IsPlain path := by
  have h := find_ends t path true
  unfold read at hr
  split at hr
  · rename_i hf; rw [hf] at h; exact h.1
  · cases hr
  · cases hr
  · cases hr

/-- A path that can be read leads somewhere. -/
theorem exists?_of_read {bytes : List UInt8} (hr : t.read path = .ok bytes) :
    t.exists? path = true := by
  unfold read at hr
  unfold exists?
  split at hr
  · rename_i hf; rw [hf]
  · cases hr
  · cases hr
  · cases hr

/-- Putting nothing at the end of a file extends a tree. -/
theorem append_extends (h : t.append path [] = .ok t') : Extends t t' := by
  have hends := find_ends t path true
  unfold append change at h
  split at h
  · rename_i r bytes hf
    cases h
    rw [hf] at hends
    refine extends_put fun m hm => ?_
    show m = .file (bytes ++ [])
    rw [List.append_nil]
    exact Option.some.inj (hm.symm.trans hends.2)
  · cases h
  · rename_i r hf
    cases h
    rw [hf] at hends
    exact extends_put fun m hm => nomatch hm.symm.trans hends
  · cases h

/-! ## Directories -/

theorem makeDirectory_extends (h : t.makeDirectory path = .ok t') : Extends t t' := by
  have hends := find_ends t path false
  unfold makeDirectory at h
  split at h
  · cases h
  · rename_i r hf
    cases h
    rw [hf] at hends
    exact extends_put fun m hm => nomatch hm.symm.trans hends
  · cases h

theorem makeDirectory_isTransport {f : Fault} (hp : IsPlain path)
    (h : t.makeDirectory path = .error f) : f.isTransport = true := by
  have hends := find_ends t path false
  unfold makeDirectory at h
  split at h
  · cases h; rfl
  · cases h
  · rename_i c hf
    cases h
    rw [hf] at hends
    exact hends hp

theorem ensureDirectory_extends (h : t.ensureDirectory path = .ok t') : Extends t t' := by
  unfold ensureDirectory at h
  split at h
  · cases h
    exact makeDirectory_extends ‹_›
  · split at h
    · cases h
      exact .refl t
    · cases h

theorem ensureDirectory_isTransport {f : Fault} (hp : IsPlain path)
    (h : t.ensureDirectory path = .error f) : f.isTransport = true := by
  unfold ensureDirectory at h
  split at h
  · cases h
  · split at h
    · cases h
    · cases h
      exact makeDirectory_isTransport hp ‹_›

theorem isPlain_parent (h : IsPlain path) : IsPlain (parent path) := by
  intro hc
  apply h
  unfold parent at hc
  rw [String.toList_ofList] at hc
  have hfront {cs : List Char} (hmem : '\x00' ∈ (cs.reverse.dropWhile (· ≠ '/')).reverse) :
      '\x00' ∈ cs :=
    List.mem_reverse.mp ((List.dropWhile_sublist _).mem (List.mem_reverse.mp hmem))
  have hbare {cs : List Char} (hmem : '\x00' ∈ (cs.reverse.dropWhile (· = '/')).reverse) :
      '\x00' ∈ cs :=
    List.mem_reverse.mp ((List.dropWhile_sublist _).mem (List.mem_reverse.mp hmem))
  split at hc
  · exact hfront hc
  · exact hfront (hbare hc)

theorem isPlain_splitLast (h : IsPlain path) : IsPlain (splitLast path).1 := by
  unfold splitLast
  split
  · exact isPlain_parent (isPlain_parent h)
  · exact isPlain_parent h

/-- Making directories extends the tree. -/
theorem makeDirectories_extends (fuel : Nat) (h : makeDirectories fuel t path = .ok t') :
    Extends t t' := by
  induction fuel generalizing path t' with
  | zero => exact ensureDirectory_extends h
  | succ fuel ih =>
      rw [makeDirectories] at h
      split at h
      rename_i front last hsplit
      split at h
      · split at h
        · rename_i t₁ hm
          split at h
          · cases h
            exact ih hm
          · exact (ih hm).trans (ensureDirectory_extends h)
        · split at h
          · cases h
            exact .refl _
          · exact ensureDirectory_extends h
        · cases h
      · exact ensureDirectory_extends h

/-- What goes wrong in making directories is the system's refusal. -/
theorem makeDirectories_isTransport (fuel : Nat) {f : Fault} (hp : IsPlain path)
    (h : makeDirectories fuel t path = .error f) : f.isTransport = true := by
  induction fuel generalizing path f with
  | zero => exact ensureDirectory_isTransport hp h
  | succ fuel ih =>
      rw [makeDirectories] at h
      split at h
      rename_i front last hsplit
      have hfront : IsPlain front := by
        have hsplit' := isPlain_splitLast hp
        rwa [hsplit] at hsplit'
      split at h
      · split at h
        · split at h
          · cases h
          · exact ensureDirectory_isTransport hp h
        · split at h
          · cases h
          · exact ensureDirectory_isTransport hp h
        · rename_i hm
          cases h
          exact ih hfront hm
      · exact ensureDirectory_isTransport hp h

theorem prepare_extends (h : t.prepare path = .ok t') : Extends t t' := by
  unfold prepare at h
  split at h
  · cases h
    exact .refl t
  · exact makeDirectories_extends _ h

theorem prepare_isTransport {f : Fault} (hp : IsPlain path) (h : t.prepare path = .error f) :
    f.isTransport = true := by
  unfold prepare at h
  split at h
  · cases h
  · exact makeDirectories_isTransport _ hp h

end Files.Tree

/-! ## Log files -/

open Files.Tree (Extends)

namespace Host

variable {h : Host} {rs : List Log.Record}

/-- Whether no log file lacks a record. -/
def IsFlushed (h : Host) : Prop := ∀ d ∈ h.handlers, d.upTo h.journal.records.length = d

theorem isFlushed_flush (h : Host) : IsFlushed h.flush := by
  intro d hd
  obtain ⟨d', -, rfl⟩ := List.mem_map.mp hd
  cases d' with
  | console l => rfl
  | file l path maxBytes backups done => rfl

/-- A handler that has nothing to write writes nothing. -/
theorem catchUp_extends {d : Handler} (hd : d.upTo rs.length = d) (t : Files.Tree) :
    Extends t (d.catchUp rs t) := by
  cases d with
  | console l => exact .refl t
  | file l path maxBytes backups done =>
      obtain rfl : rs.length = done := (Handler.file.inj hd).2.2.2.2
      rw [Handler.catchUp, List.drop_length]
      split
      · rename_i happend
        exact Files.Tree.append_extends happend
      · exact .refl t

/-- Bringing log files up to date that are so extends the files. -/
theorem IsFlushed.extends_flush (hf : IsFlushed h) : Extends h.files h.flush.files := by
  have all (ds : List Handler) (hds : ∀ d ∈ ds, d.upTo h.journal.records.length = d)
      (t : Files.Tree) : Extends t (ds.foldl (fun t d => d.catchUp h.journal.records t) t) := by
    induction ds generalizing t with
    | nil => exact .refl t
    | cons d ds ih =>
        have hd := catchUp_extends (hds d List.mem_cons_self) t
        exact hd.trans (ih (fun d' hd' => hds d' (List.mem_cons_of_mem d hd')) _)
  exact all h.handlers hf h.files

end Host

end Cockpit
