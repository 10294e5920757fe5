import Cockpit.Proofs.Json.Keys
import Cockpit.Proofs.Json.Numerals

/-!
# How reading ends

A reader goes forward in its text, and no object that it gives has a key twice.  If it fails
otherwise than by a fault of syntax, the text gives the cause: a run of more digits than an
integer may have, or more opening brackets than the depth that the reader may go down to.

`Json.Ends` says this of one reading, and there is one lemma for each part of the reader.
`Json.read_ends` is the result for whole texts.

The brackets are counted over the whole text, strings and closed lists included.  A text with
more of them than the depth may still be read.  A text with no more of them and no longer run of
digits than the limits is refused for its syntax alone (`Json.Modest.isSyntax`).
-/

namespace Cockpit.Json

variable {α β : Type} {P : α → Prop} {Q : β → Prop} {depth : Nat} {cs cs' : List Char}
  {c : Cursor}

/-! ## Causes -/

/-- Whether a character opens a list or an object. -/
def isOpening (c : Char) : Bool := c == '[' || c == '\x7b'

/-- Whether a text holds a run of digits of a length. -/
def HasDigits (cs : List Char) (n : Nat) : Prop :=
  ∃ ds, ds <:+: cs ∧ ds.length = n ∧ ∀ d ∈ ds, d.isDigit = true

/-- Whether a text gives a reader, which may go down to a depth, the cause to fail in a way. -/
def Failure.HasCause (depth : Nat) (cs : List Char) : Failure → Prop
  | .syntaxError _ _ => True
  | .numeralTooLong n => Number.digitLimit < n ∧ HasDigits cs n
  | .tooDeep => depth < cs.countP isOpening

/-- A longer text gives the same causes. -/
theorem Failure.HasCause.mono {f : Failure} (h : f.HasCause depth cs) (hs : cs <:+ cs') :
    f.HasCause depth cs' := by
  cases f with
  | syntaxError r n => trivial
  | numeralTooLong n =>
      obtain ⟨hn, ds, hd, hl, ha⟩ := h
      exact ⟨hn, ds, hd.trans hs.isInfix, hl, ha⟩
  | tooDeep => exact Nat.lt_of_lt_of_le h hs.sublist.countP_le

/-! ## Endings -/

/-- Whether a reading of a text ends with something of a property and a rest of the text, or
fails for a cause in the text. -/
def Ends (P : α → Prop) (depth : Nat) (cs : List Char) : Except Failure (α × Cursor) → Prop
  | .ok (a, c) => P a ∧ c.rest <:+ cs
  | .error f => f.HasCause depth cs

theorem ends_fail (r : Reason) : Ends P depth cs (c.fail r) := trivial

theorem ends_ok {a : α} (ha : P a) (hs : c.rest <:+ cs) : Ends P depth cs (.ok (a, c)) := ⟨ha, hs⟩

theorem Ends.mono {x : Except Failure (α × Cursor)} (h : Ends P depth cs x) (hs : cs <:+ cs') :
    Ends P depth cs' x := by
  match x, h with
  | .ok _, h => exact ⟨h.1, h.2.trans hs⟩
  | .error _, h => exact Failure.HasCause.mono h hs

theorem Ends.bind {x : Except Failure (α × Cursor)}
    {f : α × Cursor → Except Failure (β × Cursor)} (hx : Ends P depth cs x)
    (hf : ∀ a c, P a → c.rest <:+ cs → Ends Q depth cs (f (a, c))) : Ends Q depth cs (x >>= f) := by
  match x, hx with
  | .ok (a, c), hx => exact hf a c hx.1 hx.2
  | .error _, hx => exact hx

theorem Ends.map {x : Except Failure (α × Cursor)} {g : α × Cursor → β × Cursor}
    (hx : Ends P depth cs x) (hc : ∀ a c, (g (a, c)).2 = c) (hg : ∀ a c, P a → Q (g (a, c)).1) :
    Ends Q depth cs (x.map g) := by
  match x, hx with
  | .ok (a, c), hx => exact ⟨hg a c hx.1, (hc a c).symm ▸ hx.2⟩
  | .error _, hx => exact hx

theorem advance_suffix (c : Cursor) (n : Nat) : (c.advance n).rest <:+ c.rest :=
  List.drop_suffix n c.rest

theorem skipBlanks_suffix (c : Cursor) : c.skipBlanks.rest <:+ c.rest := advance_suffix c _

/-! ## Strings -/

/-- A code that cannot be read is a fault of syntax. -/
theorem readCode_error {f : Failure} (h : readCode c = .error f) :
    ∃ r n, f = .syntaxError r n := by
  have failed {c : Cursor} {r : Reason} (h : (c.fail r : Except Failure (Char × Nat)) = .error f) :
      ∃ r n, f = .syntaxError r n := ⟨r, c.position, (Except.error.inj h).symm⟩
  unfold readCode at h
  dsimp only at h
  split at h
  · exact failed h
  · split at h
    · exact failed h
    · split at h
      · split at h
        · exact failed h
        · split at h
          · cases h
          · cases h
      · cases h

theorem readChars_ends (opening fuel : Nat) (read : List Char) (hs : c.rest <:+ cs) :
    Ends (fun _ => True) depth cs (readChars opening fuel read c) := by
  induction fuel generalizing read c with
  | zero => trivial
  | succ fuel ih =>
      have next (read : List Char) (n : Nat) :=
        ih (c := c.advance n) read ((advance_suffix c n).trans hs)
      rw [readChars]
      split
      · trivial
      · exact ends_ok trivial ((advance_suffix c 1).trans hs)
      · split
        · trivial
        · cases hr : readCode (c.advance 1) with
          | error f =>
              obtain ⟨r, n, rfl⟩ := readCode_error hr
              trivial
          | ok x => exact next (x.1 :: read) (x.2 + 1)
        · split
          · exact next _ 2
          · exact ends_fail _
      · split
        · exact ends_fail _
        · exact next _ 1

theorem readString_ends (hs : c.rest <:+ cs) : Ends (fun _ => True) depth cs (readString c) :=
  readChars_ends _ _ _ ((advance_suffix c 1).trans hs)

/-! ## Numbers and names -/

/-- The digits of an integer are digits at the front. -/
theorem wholeOf_prefix (cs : List Char) :
    wholeOf cs <+: cs ∧ ∀ d ∈ wholeOf cs, d.isDigit = true := by
  unfold wholeOf
  split
  · exact ⟨⟨_, rfl⟩, fun d hd => List.mem_singleton.mp hd ▸ rfl⟩
  · exact ⟨List.takeWhile_prefix _, fun d hd => List.all_eq_true.mp List.all_takeWhile d hd⟩

theorem readNumber_ends (hs : c.rest <:+ cs) : Ends Value.Keyed depth cs (readNumber c) := by
  have hbody :
      (if (c.rest.head? == some '-') = true then c.rest.drop 1 else c.rest) <:+ c.rest := by
    split
    · exact List.drop_suffix 1 c.rest
    · exact List.suffix_refl c.rest
  rw [readNumber]
  generalize (if (c.rest.head? == some '-') = true then c.rest.drop 1 else c.rest) = body at hbody
  obtain ⟨hp, hd⟩ := wholeOf_prefix body
  dsimp only
  split
  · exact ends_fail _
  · split
    · split
      · rename_i hlong
        exact ⟨hlong, _, (hp.isInfix.trans hbody.isInfix).trans hs.isInfix, rfl, hd⟩
      · exact ends_ok (.int _) ((advance_suffix c _).trans hs)
    · split
      · exact ends_ok (.float _) ((advance_suffix c _).trans hs)
      · exact ends_fail _

/-- The values that are written by name are no objects. -/
theorem keyed_of_mem_named {e : String × Value} (h : e ∈ named) : e.2.Keyed := by
  simp only [named, List.mem_cons, List.not_mem_nil, or_false] at h
  rcases h with rfl | rfl | rfl | rfl | rfl | rfl
  · exact .null
  · exact .bool true
  · exact .bool false
  · exact .float _
  · exact .float _
  · exact .float _

theorem readPlain_ends (hs : c.rest <:+ cs) : Ends Value.Keyed depth cs (readPlain c) := by
  rw [readPlain]
  split
  · rename_i e he
    have hkeyed := keyed_of_mem_named (List.mem_of_find?_eq_some he)
    exact ends_ok hkeyed ((advance_suffix c _).trans hs)
  · exact readNumber_ends hs

/-! ## Lists and objects -/

/-- Whether a reader of values always ends well. -/
def ReadsKeyed (depth : Nat) (item : ValueReader) : Prop :=
  ∀ c : Cursor, Ends Value.Keyed depth c.rest (item c)

theorem ReadsKeyed.ends {item : ValueReader} (hi : ReadsKeyed depth item) (hs : c.rest <:+ cs) :
    Ends Value.Keyed depth cs (item c) := (hi c).mono hs

theorem readItems_ends {item : ValueReader} (hi : ReadsKeyed depth item) (fuel : Nat)
    {read : List Value} (hr : ∀ v ∈ read, v.Keyed) (hs : c.rest <:+ cs) :
    Ends (fun vs => ∀ v ∈ vs, v.Keyed) depth cs (readItems item fuel read c) := by
  induction fuel generalizing read c with
  | zero => exact ends_fail _
  | succ fuel ih =>
      rw [readItems]
      refine (hi.ends hs).bind fun v c' hv hs' => ?_
      have hread : ∀ u ∈ v :: read, u.Keyed := fun u hu =>
        (List.mem_cons.mp hu).elim (fun h => h ▸ hv) (hr u)
      have hblank : c'.skipBlanks.rest <:+ cs := (skipBlanks_suffix c').trans hs'
      dsimp only
      split
      · exact ends_ok (fun u hu => hread u (List.mem_reverse.mp hu))
          ((advance_suffix _ 1).trans hblank)
      · exact ih hread ((skipBlanks_suffix _).trans ((advance_suffix _ 1).trans hblank))
      · exact ends_fail _

theorem readEntries_ends {item : ValueReader} (hi : ReadsKeyed depth item) (fuel : Nat)
    {read : List (String × Value)} (hr : ∀ e ∈ read, e.2.Keyed) (hs : c.rest <:+ cs) :
    Ends (fun es => (es.map Prod.fst).Nodup ∧ ∀ e ∈ es, e.2.Keyed) depth cs
      (readEntries item fuel read c) := by
  induction fuel generalizing read c with
  | zero => exact ends_fail _
  | succ fuel ih =>
      rw [readEntries]
      split
      · exact ends_fail _
      · refine (readString_ends hs).bind fun k c₁ _ hs₁ => ?_
        have hblank₁ : c₁.skipBlanks.rest <:+ cs := (skipBlanks_suffix c₁).trans hs₁
        dsimp only
        split
        · exact ends_fail _
        · have hvalue : (c₁.skipBlanks.advance 1).skipBlanks.rest <:+ cs :=
            (skipBlanks_suffix _).trans ((advance_suffix _ 1).trans hblank₁)
          refine (hi.ends hvalue).bind fun v c₂ hv hs₂ => ?_
          have hread : ∀ e ∈ (k, v) :: read, e.2.Keyed := fun e he =>
            (List.mem_cons.mp he).elim (fun h => h ▸ hv) (hr e)
          have hblank₂ : c₂.skipBlanks.rest <:+ cs := (skipBlanks_suffix c₂).trans hs₂
          dsimp only
          split
          · exact ends_ok (Entries.ofList_keeps fun e he => hread e (List.mem_reverse.mp he))
              ((advance_suffix _ 1).trans hblank₂)
          · exact ih hread ((skipBlanks_suffix _).trans ((advance_suffix _ 1).trans hblank₂))
          · exact ends_fail _

/-! ## Values -/

/-- A bracket that opens something inside which the reader fails too deep is one more of them. -/
theorem Ends.within {x : Cursor} {r : Except Failure (α × Cursor)} {b : Char} {rest : List Char}
    (hb : isOpening b = true) (hc : c.rest = b :: rest) (hx : x.rest <:+ (c.advance 1).rest)
    (h : Ends P depth x.rest r) : Ends P (depth + 1) c.rest r := by
  have hrest : x.rest <:+ rest := by
    rw [Cursor.advance, hc] at hx
    exact hx
  have hs : x.rest <:+ c.rest := hx.trans (advance_suffix c 1)
  cases r with
  | ok a => exact ⟨h.1, h.2.trans hs⟩
  | error f =>
      cases f with
      | syntaxError r n => trivial
      | numeralTooLong n =>
          have hcause : (Failure.numeralTooLong n).HasCause (depth + 1) x.rest := h
          exact hcause.mono hs
      | tooDeep =>
          have hle : x.rest.countP isOpening ≤ rest.countP isOpening := hrest.sublist.countP_le
          have hcount : c.rest.countP isOpening = rest.countP isOpening + 1 := by
            rw [hc, List.countP_cons_of_pos hb]
          change depth + 1 < c.rest.countP isOpening
          rw [hcount]
          exact Nat.succ_lt_succ (Nat.lt_of_lt_of_le h hle)

/-- A reader that may go no further down fails only at a bracket. -/
theorem readValue_none_ends : ReadsKeyed 0 (readValue none) := by
  intro c
  have bracket {b : Char} {rest : List Char} (hb : isOpening b = true) (hc : c.rest = b :: rest) :
      0 < c.rest.countP isOpening := by
    rw [hc, List.countP_cons_of_pos hb]
    exact Nat.succ_pos _
  rw [readValue]
  split
  · exact ends_fail _
  · exact (readString_ends (List.suffix_refl _)).map (fun _ _ => rfl) fun s _ _ => .text s
  · exact bracket rfl ‹_›
  · exact bracket rfl ‹_›
  · exact readPlain_ends (List.suffix_refl _)

theorem readValue_some_ends {item : ValueReader} (hi : ReadsKeyed depth item) :
    ReadsKeyed (depth + 1) (readValue (some item)) := by
  intro c
  have hblank : (c.advance 1).skipBlanks.rest <:+ (c.advance 1).rest := skipBlanks_suffix _
  have hclose : ((c.advance 1).skipBlanks.advance 1).rest <:+ c.rest :=
    (advance_suffix _ 1).trans (hblank.trans (advance_suffix c 1))
  rw [readValue]
  split
  · exact ends_fail _
  · exact (readString_ends (List.suffix_refl _)).map (fun _ _ => rfl) fun s _ _ => .text s
  · dsimp only
    split
    · exact ends_ok (.list fun _ h => absurd h List.not_mem_nil) hclose
    · refine (Ends.within rfl ‹_› hblank (readItems_ends hi _ ?_ (List.suffix_refl _))).map
        (fun _ _ => rfl) fun vs _ hv => .list hv
      exact fun _ h => absurd h List.not_mem_nil
  · dsimp only
    split
    · exact ends_ok (.object List.nodup_nil fun _ h => absurd h List.not_mem_nil) hclose
    · refine (Ends.within rfl ‹_› hblank (readEntries_ends hi _ ?_ (List.suffix_refl _))).map
        (fun _ _ => rfl) fun es _ he => .object he.1 he.2
      exact fun _ h => absurd h List.not_mem_nil
  · exact readPlain_ends (List.suffix_refl _)

theorem readNested_ends (depth : Nat) : ReadsKeyed depth (readNested depth) := by
  induction depth with
  | zero => exact readValue_none_ends
  | succ depth ih => exact readValue_some_ends ih

/-! ## Texts -/

/-- What a whole text gives has no key twice, and what it is refused for has a cause. -/
theorem read_ends (text : String) :
    (∀ v, read text = .ok v → v.Keyed) ∧
      ∀ f, read text = .error f → f.HasCause depthLimit text.toList := by
  have h := (readNested_ends depthLimit).ends (skipBlanks_suffix (⟨text.toList, 0⟩ : Cursor))
  rw [read]
  dsimp only
  split
  · refine ⟨nofun, fun f hf => ?_⟩
    cases hf
    trivial
  · cases hr : readNested depthLimit (Cursor.skipBlanks ⟨text.toList, 0⟩) with
    | error g =>
        rw [hr] at h
        refine ⟨nofun, fun f hf => ?_⟩
        cases hf
        exact h
    | ok x =>
        rw [hr] at h
        constructor
        · intro v hv
          change (if x.2.skipBlanks.rest.isEmpty then pure x.1 else x.2.skipBlanks.fail .extra) =
            Except.ok v at hv
          split at hv
          · cases hv
            exact h.1
          · cases hv
        · intro f hf
          change (if x.2.skipBlanks.rest.isEmpty then pure x.1 else x.2.skipBlanks.fail .extra) =
            Except.error f at hf
          split at hf
          · cases hf
          · cases hf
            trivial

/-- No object of a text that can be read has a key twice. -/
theorem keyed_of_read {text : String} {v : Value} (h : read text = .ok v) : v.Keyed :=
  (read_ends text).1 v h

/-- A text that is refused gives the cause. -/
theorem hasCause_of_read {text : String} {f : Failure} (h : read text = .error f) :
    f.HasCause depthLimit text.toList :=
  (read_ends text).2 f h

/-! ## Limits -/

/-- Whether a failure is a fault of syntax, and no limit of the reader. -/
def Failure.isSyntax : Failure → Bool
  | .syntaxError _ _ => true
  | .numeralTooLong _ => false
  | .tooDeep => false

/-- Whether a text stays within the limits of the reader: in the digits in a row, and in the
brackets that it opens. -/
structure Modest (cs : List Char) : Prop where
  digits : ∀ n, HasDigits cs n → n ≤ Number.digitLimit
  brackets : cs.countP isOpening ≤ depthLimit

/-- A text within the limits is refused for its syntax only. -/
theorem Modest.isSyntax {text : String} (hm : Modest text.toList) {f : Failure}
    (h : read text = .error f) : f.isSyntax = true := by
  have hf := hasCause_of_read h
  cases f with
  | syntaxError r n => rfl
  | numeralTooLong n =>
      obtain ⟨hlong, hdigits⟩ := hf
      exact absurd (hm.digits n hdigits) (Nat.not_le.mpr hlong)
  | tooDeep => exact absurd hm.brackets (Nat.not_le.mpr hf)

end Cockpit.Json
