import Cockpit.Proofs.Json.Endings
import Cockpit.Proofs.Json.Numbers
import Cockpit.Proofs.Json.Strings

/-!
# Layout of JSON

What stands between the parts of a written list or object, and how the reader
gets past it.  `Takes` says that a reader takes exactly a text, whatever follows
it that cannot continue a number, and gives a value or passes a limit.

Lists and objects are both rows of parts up to a mark (`readRow`).  A row is taken
if its parts are, and what comes of it is what comes of them (`takes_list`,
`takes_object`).
-/

namespace Cockpit.Json

/-! ## Blanks -/

/-- Whether the reader skips a character. -/
def isBlank (c : Char) : Bool := c == ' ' || c == '\t' || c == '\n' || c == '\r'

/-- Whether the reader skips all characters. -/
def Blank (cs : List Char) : Prop := ∀ c ∈ cs, isBlank c = true

/-- Whether no character to skip comes next. -/
def NoBlank (cs : List Char) : Prop := ∀ c ∈ cs.head?, isBlank c = false

theorem blank_nil : Blank [] := by
  intro c hc
  cases hc

theorem Blank.append {as bs : List Char} (ha : Blank as) (hb : Blank bs) : Blank (as ++ bs) :=
  fun c hc => (List.mem_append.mp hc).elim (ha c) (hb c)

theorem noBlank_cons {c : Char} (h : isBlank c = false) (cs : List Char) : NoBlank (c :: cs) := by
  intro d hd
  cases hd
  exact h

theorem skipBlanks_append {bs cs : List Char} (hb : Blank bs) (hc : NoBlank cs) (p : Nat) :
    (Cursor.mk (bs ++ cs) p).skipBlanks = ⟨cs, p + bs.length⟩ := by
  have ht : (bs ++ cs).takeWhile isBlank = bs := by
    rw [List.takeWhile_append_of_pos hb]
    cases cs with
    | nil => simp
    | cons c cs => rw [List.takeWhile_cons_of_neg (by simp [hc c rfl]), List.append_nil]
  change Cursor.advance _ ((bs ++ cs).takeWhile isBlank).length = _
  rw [ht, Cursor.advance, List.drop_left]

theorem skipBlanks_of_noBlank {cs : List Char} (hc : NoBlank cs) (p : Nat) :
    (Cursor.mk cs p).skipBlanks = ⟨cs, p⟩ := skipBlanks_append blank_nil hc p

theorem endsNumber_cons {c : Char} (h : c.isDigit = false ∧ c ≠ '.' ∧ c ≠ 'e' ∧ c ≠ 'E')
    (cs : List Char) : EndsNumber (c :: cs) := by
  intro d hd
  cases hd
  exact h

/-- Blanks and marks end numbers. -/
theorem endsNumber_of_blank {bs : List Char} (hb : Blank bs) {c : Char} (cs : List Char)
    (hc : EndsNumber (c :: cs)) : EndsNumber (bs ++ c :: cs) := by
  cases bs with
  | nil => exact hc
  | cons b bs =>
      have h := hb b List.mem_cons_self
      simp only [isBlank, Bool.or_eq_true, beq_iff_eq] at h
      refine endsNumber_cons ?_ _
      rcases h with ((rfl | rfl) | rfl) | rfl <;> decide

/-! ## Styles -/

/-- Whether a style has nothing but blanks beside its commas and colons. -/
structure Style.Spaced (s : Style) : Prop where
  comma : ∃ bs, s.comma.toList = ',' :: bs ∧ Blank bs
  colon : ∃ bs, s.colon.toList = ':' :: bs ∧ Blank bs

theorem spaced_wire : Style.wire.Spaced := ⟨⟨[], rfl, blank_nil⟩, ⟨[], rfl, blank_nil⟩⟩

theorem spaced_file : Style.file.Spaced :=
  ⟨⟨[], rfl, blank_nil⟩, ⟨[' '], rfl, by simp [Blank, isBlank]⟩⟩

theorem spaced_plain : Style.plain.Spaced :=
  ⟨⟨[' '], rfl, by simp [Blank, isBlank]⟩, ⟨[' '], rfl, by simp [Blank, isBlank]⟩⟩

/-- Escaping changes nothing beside commas and colons. -/
theorem Style.Spaced.escaping {s : Style} (h : s.Spaced) (escapeAll : Bool) :
    Style.Spaced { s with escapeAll } := ⟨h.comma, h.colon⟩

theorem blank_lineBreak (s : Style) (level : Nat) : Blank (lineBreak s level) := by
  intro c hc
  rw [lineBreak] at hc
  split at hc
  · rcases List.mem_cons.mp hc with rfl | hc
    · rfl
    · cases List.eq_of_mem_replicate hc
      rfl
  · cases hc

/-! ## Readers that take a text -/

variable {α β γ : Type}

/-- Whether a reading gives a result and leaves a rest.  Without a result it passes a limit. -/
def Finds (rest : List Char) (o : Option β) (x : Except Failure (β × Cursor)) : Prop :=
  match o with
  | some b => ∃ q, x = .ok (b, ⟨rest, q⟩)
  | none => ∃ f, x = .error f ∧ f.isSyntax = false

theorem finds_ok (rest : List Char) (b : β) (q : Nat) : Finds rest (some b) (.ok (b, ⟨rest, q⟩)) :=
  ⟨q, rfl⟩

theorem Finds.bind {rest rest' : List Char} {o : Option β} {x : Except Failure (β × Cursor)}
    {k : β → Option γ} {f : β × Cursor → Except Failure (γ × Cursor)} (hx : Finds rest o x)
    (hf : ∀ b q, Finds rest' (k b) (f (b, ⟨rest, q⟩))) : Finds rest' (o.bind k) (x >>= f) := by
  cases o with
  | some b =>
      obtain ⟨q, rfl⟩ := hx
      exact hf b q
  | none =>
      obtain ⟨g, rfl, hg⟩ := hx
      exact ⟨g, rfl, hg⟩

theorem Finds.map {rest : List Char} {o : Option β} {x : Except Failure (β × Cursor)}
    (hx : Finds rest o x) (g : β → γ) :
    Finds rest (o.map g) (x.map fun r => (g r.1, r.2)) := by
  cases o with
  | some b =>
      obtain ⟨q, rfl⟩ := hx
      exact ⟨q, rfl⟩
  | none =>
      obtain ⟨f, rfl, hf⟩ := hx
      exact ⟨f, rfl, hf⟩

/-- Whether a reader takes exactly a text and gives a result, or passes a limit in it. -/
def Takes (r : Cursor → Except Failure (β × Cursor)) (text : List Char) (o : Option β) : Prop :=
  ∀ rest p, EndsNumber rest → Finds rest o (r ⟨text ++ rest, p⟩)

/-- Whether a reader takes exactly a text and gives a value. -/
def Reads (r : ValueReader) (text : List Char) (v : Value) : Prop :=
  ∀ rest p, EndsNumber rest → ∃ q, r ⟨text ++ rest, p⟩ = .ok (v, ⟨rest, q⟩)

theorem reads_iff {r : ValueReader} {text : List Char} {v : Value} :
    Reads r text v ↔ Takes r text (some v) := Iff.rfl

/-- Whether a text starts like a value: not with a blank, a closing mark or a mark of
the byte order. -/
def StartsValue (text : List Char) : Prop :=
  ∃ c cs, text = c :: cs ∧ isBlank c = false ∧ c ≠ ']' ∧ c ≠ '\x7d' ∧ c ≠ '\uFEFF'

theorem StartsValue.noBlank {text : List Char} (h : StartsValue text) (rest : List Char) :
    NoBlank (text ++ rest) := by
  obtain ⟨c, cs, rfl, hb, -⟩ := h
  exact noBlank_cons hb _

theorem StartsValue.append {text : List Char} (h : StartsValue text) (rest : List Char) :
    StartsValue (text ++ rest) := by
  obtain ⟨c, cs, rfl, h⟩ := h
  exact ⟨c, cs ++ rest, rfl, h⟩

theorem startsValue_intercalate {text : List Char} (h : StartsValue text) (sep : List Char)
    (texts : List (List Char)) : StartsValue (sep.intercalate (text :: texts)) := by
  cases texts with
  | nil => rwa [List.intercalate_singleton]
  | cons t ts =>
      rw [List.intercalate_cons_cons, List.append_assoc]
      exact h.append _

/-! ## Rows -/

/-- A row of parts up to a mark, with commas between them. -/
def readRow (mark : Char) (missing : Reason) (part : Cursor → Except Failure (β × Cursor)) :
    (fuel : Nat) → List β → Cursor → Except Failure (List β × Cursor)
  | 0, _, c => c.fail missing
  | fuel + 1, read, c => do
    let (x, c) ← part c
    let c := c.skipBlanks
    if c.rest.head? = some mark then return ((x :: read).reverse, c.advance 1)
    else if c.rest.head? = some ',' then
      readRow mark missing part fuel (x :: read) (c.advance 1).skipBlanks
    else c.fail .comma

/-- One entry of an object: its key, a colon and its value. -/
def readEntry (item : ValueReader) (c : Cursor) : Except Failure ((String × Value) × Cursor) := do
  if c.rest.head? != some '"' then c.fail .propertyName
  else
    let (k, c) ← readString c
    let c := c.skipBlanks
    if c.rest.head? != some ':' then c.fail .colon
    else
      let (x, c) ← item (c.advance 1).skipBlanks
      return ((k, x), c)

variable {item : ValueReader} {part : Cursor → Except Failure (β × Cursor)}
  {mark : Char} {write : α → List Char} {o : α → Option β} {fuel : Nat} {bs ds rest : List Char}

/-- The items of a list are a row. -/
theorem readItems_eq (item : ValueReader) (fuel : Nat) (read : List Value) (c : Cursor) :
    readItems item fuel read c = readRow ']' .value item fuel read c := by
  induction fuel generalizing read c with
  | zero => rfl
  | succ fuel ih =>
      rw [readItems, readRow]
      refine bind_congr fun r => ?_
      dsimp only
      split
      · rename_i heq
        rw [heq, List.head?_cons, if_pos rfl]
      · rename_i heq
        rw [heq, List.head?_cons, if_neg (by simp), if_pos rfl, ih]
      · rename_i hmark hcomma
        rw [if_neg (by simpa [List.head?_eq_some_iff] using hmark),
          if_neg (by simpa [List.head?_eq_some_iff] using hcomma)]

/-- The entries of an object are a row. -/
theorem readEntries_eq (item : ValueReader) (fuel : Nat) (read : List (String × Value))
    (c : Cursor) :
    readEntries item fuel read c =
      (readRow '\x7d' .propertyName (readEntry item) fuel read c).map
        fun r => (Entries.ofList r.1, r.2) := by
  induction fuel generalizing read c with
  | zero => rfl
  | succ fuel ih =>
      rw [readEntries, readRow, readEntry]
      split
      · rfl
      · cases readString c with
        | error f => rfl
        | ok r =>
            simp only [bind, Except.bind]
            split
            · rfl
            · cases item (r.2.skipBlanks.advance 1).skipBlanks with
              | error f => rfl
              | ok r' =>
                  simp only [pure, Except.pure]
                  split
                  · rename_i heq
                    rw [heq, List.head?_cons, if_pos rfl]
                    rfl
                  · rename_i heq
                    rw [heq, List.head?_cons, if_neg (by simp), if_pos rfl, ih]
                  · rename_i hmark hcomma
                    rw [if_neg (by simpa [List.head?_eq_some_iff] using hmark),
                      if_neg (by simpa [List.head?_eq_some_iff] using hcomma)]
                    rfl

/-- Whether a character can close a row: it is no comma and cannot stand in what comes before. -/
structure Closes (mark : Char) : Prop where
  notBlank : isBlank mark = false
  ne_comma : mark ≠ ','
  ends : ∀ rest, EndsNumber (mark :: rest)

theorem closes_bracket : Closes ']' := ⟨rfl, by decide, fun _ => endsNumber_cons (by decide) _⟩

theorem closes_brace : Closes '\x7d' := ⟨rfl, by decide, fun _ => endsNumber_cons (by decide) _⟩

/-- The row ends behind the last part. -/
theorem finds_last (missing : Reason) (hm : Closes mark) {text : List Char} {b? : Option β}
    (h : Takes part text b?) (hd : Blank ds) (read : List β) (rest : List Char) (p : Nat) :
    Finds rest (b?.map fun b => (b :: read).reverse)
      (readRow mark missing part (fuel + 1) read ⟨text ++ (ds ++ mark :: rest), p⟩) := by
  rw [Option.map_eq_bind, readRow]
  refine (h _ p (endsNumber_of_blank hd rest (hm.ends rest))).bind fun b q => ?_
  dsimp only
  rw [skipBlanks_append hd (noBlank_cons hm.notBlank rest), List.head?_cons, if_pos rfl]
  exact finds_ok rest _ _

/-- The row goes on behind a part with a comma. -/
theorem finds_next (missing : Reason) {text more : List Char} {b? : Option β}
    {k : β → Option (List β)} (h : Takes part text b?) (hm : Closes mark) (read : List β) (p : Nat)
    (hk : ∀ b q,
      Finds rest (k b) (readRow mark missing part fuel (b :: read) (Cursor.mk more q).skipBlanks)) :
    Finds rest (b?.bind k)
      (readRow mark missing part (fuel + 1) read ⟨text ++ ',' :: more, p⟩) := by
  rw [readRow]
  refine (h _ p (endsNumber_cons (by decide) _)).bind fun b q => ?_
  dsimp only
  rw [skipBlanks_of_noBlank (noBlank_cons rfl more), List.head?_cons,
    if_neg (fun he => hm.ne_comma (Option.some.inj he).symm), if_pos rfl]
  exact hk b (q + 1)

/-- Parts in a row are taken if each of them is. -/
theorem finds_row (missing : Reason) (hm : Closes mark) {xs : List α}
    (ht : ∀ x ∈ xs, Takes part (write x) (o x)) (hstart : ∀ x ∈ xs, StartsValue (write x))
    (hne : xs ≠ []) (hb : Blank bs) (hd : Blank ds) (hf : xs.length ≤ fuel) (read : List β)
    (rest : List Char) (p : Nat) :
    Finds rest ((xs.mapM o).map (read.reverse ++ ·))
      (readRow mark missing part fuel read
        ⟨List.intercalate (',' :: bs) (xs.map write) ++ (ds ++ mark :: rest), p⟩) := by
  induction xs generalizing fuel read p with
  | nil => exact absurd rfl hne
  | cons x xs ih =>
      obtain ⟨f, rfl⟩ := Nat.exists_eq_succ_of_ne_zero (Nat.ne_of_gt (Nat.zero_lt_of_lt hf))
      have hx := ht x List.mem_cons_self
      cases xs with
      | nil =>
          have hlast : ([x].mapM o).map (read.reverse ++ ·) =
              (o x).map fun b => (b :: read).reverse := by
            rw [List.mapM_cons]
            cases o x <;> simp
          rw [List.map_singleton, List.intercalate_singleton, hlast]
          exact finds_last missing hm hx hd read rest p
      | cons y ys =>
          have htext : List.intercalate (',' :: bs) ((x :: y :: ys).map write) ++
              (ds ++ mark :: rest) =
              write x ++ ',' :: (bs ++ (List.intercalate (',' :: bs) ((y :: ys).map write)
                ++ (ds ++ mark :: rest))) := by
            rw [List.map_cons, List.map_cons, List.intercalate_cons_cons]
            simp
          have hs : StartsValue (List.intercalate (',' :: bs) ((y :: ys).map write)) :=
            startsValue_intercalate (hstart y (by simp)) _ _
          have hnext : ((x :: y :: ys).mapM o).map (read.reverse ++ ·) =
              (o x).bind fun b => ((y :: ys).mapM o).map ((b :: read).reverse ++ ·) := by
            rw [List.mapM_cons]
            cases o x with
            | none => rfl
            | some b => cases (y :: ys).mapM o <;> simp
          rw [htext, hnext]
          refine finds_next missing hx hm read p fun b q => ?_
          rw [skipBlanks_append hb (hs.noBlank _)]
          exact ih (fun z hz => ht z (List.mem_cons_of_mem x hz))
            (fun z hz => hstart z (List.mem_cons_of_mem x hz)) (List.cons_ne_nil y ys)
            (Nat.le_of_succ_le_succ hf) (b :: read) (q + bs.length)

/-! ## Objects -/

/-- An entry as it is written. -/
def writeEntry (s : Style) (write : Value → List Char) (e : String × Value) : List Char :=
  writeString s.escapeAll e.1 ++ s.colon.toList ++ write e.2

theorem startsValue_writeString (escapeAll : Bool) (t : String) :
    StartsValue (writeString escapeAll t) :=
  ⟨'"', _, rfl, rfl, by decide, by decide, by decide⟩

theorem startsValue_writeEntry (s : Style) (write : Value → List Char) (e : String × Value) :
    StartsValue (writeEntry s write e) := by
  rw [writeEntry, List.append_assoc]
  exact (startsValue_writeString _ _).append _

theorem writeItems_eq (s : Style) (level : Nat) (xs : List Value) :
    writeItems s level xs = xs.map (writeAt s level) := by
  induction xs with
  | nil => rfl
  | cons x xs ih => rw [writeItems, ih, List.map_cons]

theorem writeEntries_eq (s : Style) (level : Nat) (es : Entries) :
    writeEntries s level es = es.map (writeEntry s (writeAt s level)) := by
  induction es with
  | nil => rfl
  | cons e es ih =>
      obtain ⟨k, x⟩ := e
      rw [writeEntries, ih, List.map_cons]
      rfl

theorem writeAt_list (s : Style) (level : Nat) (xs : List Value) :
    writeAt s level (.list xs) = enclose s level '[' ']' (xs.map (writeAt s (level + 1))) := by
  rw [writeAt, writeItems_eq]

theorem writeAt_object (s : Style) (level : Nat) (es : Entries) :
    writeAt s level (.object es) =
      enclose s level '\x7b' '\x7d' (es.map (writeEntry s (writeAt s (level + 1)))) := by
  rw [writeAt, writeEntries_eq]

/-- An entry is taken if its value is. -/
theorem takes_entry {s : Style} (hs : s.Spaced) {write : Value → List Char} {e : String × Value}
    {v? : Option Value} (hstart : StartsValue (write e.2)) (h : Takes item (write e.2) v?) :
    Takes (readEntry item) (writeEntry s write e) (v?.map (e.1, ·)) := by
  intro rest p hr
  obtain ⟨bs, hcolon, hb⟩ := hs.colon
  have htext : writeEntry s write e ++ rest =
      writeString s.escapeAll e.1 ++ ':' :: (bs ++ (write e.2 ++ rest)) := by
    rw [writeEntry, hcolon]
    simp
  obtain ⟨k, hk⟩ := readString_writeString s.escapeAll e.1 (':' :: (bs ++ (write e.2 ++ rest))) p
  have hquote : ((writeString s.escapeAll e.1 ++ ':' :: (bs ++ (write e.2 ++ rest))).head?
      != some '"') = false := rfl
  have hskip := skipBlanks_of_noBlank (noBlank_cons (c := ':') rfl (bs ++ (write e.2 ++ rest))) k
  have hspace := skipBlanks_append hb (hstart.noBlank rest) (k + 1)
  have hmark : ((':' :: (bs ++ (write e.2 ++ rest))).head? != some ':') = false := rfl
  have hnext : (Cursor.mk (':' :: (bs ++ (write e.2 ++ rest))) k).advance 1 =
      ⟨bs ++ (write e.2 ++ rest), k + 1⟩ := rfl
  have hread : readEntry item ⟨writeEntry s write e ++ rest, p⟩ =
      (item ⟨write e.2 ++ rest, k + 1 + bs.length⟩).map fun r => ((e.1, r.1), r.2) := by
    rw [readEntry, htext]
    simp only [hquote, hmark, Bool.false_eq_true, if_false, hk, bind, Except.bind, hskip, hnext,
      hspace]
    cases item ⟨write e.2 ++ rest, k + 1 + bs.length⟩ <;> rfl
  rw [hread]
  exact (h rest _ hr).map (e.1, ·)

/-! ## Brackets -/

theorem length_le_intercalate (sep : List Char) {texts : List (List Char)}
    (h : ∀ t ∈ texts, t ≠ []) : texts.length ≤ (sep.intercalate texts).length := by
  induction texts with
  | nil => exact Nat.zero_le _
  | cons t ts ih =>
      have ht := List.length_pos_iff.mpr (h t List.mem_cons_self)
      have hts := ih fun u hu => h u (List.mem_cons_of_mem t hu)
      cases ts with
      | nil =>
          rw [List.intercalate_singleton]
          exact ht
      | cons u us =>
          rw [List.intercalate_cons_cons]
          simp only [List.length_append, List.length_cons] at hts ⊢
          omega

theorem StartsValue.ne_nil {text : List Char} (h : StartsValue text) : text ≠ [] := by
  obtain ⟨c, cs, rfl, -⟩ := h
  exact List.cons_ne_nil c cs

theorem length_le_row (sep : List Char) {write : α → List Char} {xs : List α}
    (h : ∀ x ∈ xs, StartsValue (write x)) (rest : List Char) :
    xs.length ≤ (sep.intercalate (xs.map write) ++ rest).length + 1 := by
  have hne : ∀ t ∈ xs.map write, t ≠ [] := by
    intro t ht
    obtain ⟨x, hx, rfl⟩ := List.mem_map.mp ht
    exact (h x hx).ne_nil
  have hl := length_le_intercalate sep hne
  rw [List.length_map] at hl
  rw [List.length_append]
  omega

/-- What stands between the brackets of a row that is not empty. -/
theorem enclose_append {s : Style} (level : Nat) (opening closing : Char)
    {texts : List (List Char)} (hne : texts ≠ []) (rest : List Char) :
    enclose s level opening closing texts ++ rest =
      opening :: (lineBreak s (level + 1) ++
        ((s.comma.toList ++ lineBreak s (level + 1)).intercalate texts
          ++ (lineBreak s level ++ closing :: rest))) := by
  obtain ⟨t, ts, rfl⟩ := List.exists_cons_of_ne_nil hne
  simp [enclose]

theorem readValue_bracket {bs cs : List Char} (hb : Blank bs) (hs : StartsValue cs) (p : Nat) :
    readValue (some item) ⟨'[' :: (bs ++ cs), p⟩ =
      (readItems item (cs.length + 1) [] ⟨cs, p + 1 + bs.length⟩).map
        fun r => (.list r.1, r.2) := by
  have hskip := skipBlanks_append hb (List.append_nil cs ▸ hs.noBlank []) (p + 1)
  obtain ⟨c, cs, rfl, -, hc, -⟩ := hs
  have hnext : (Cursor.mk ('[' :: (bs ++ c :: cs)) p).advance 1 = ⟨bs ++ c :: cs, p + 1⟩ := rfl
  have hhead : (c :: cs).head? ≠ some ']' := fun h => hc (Option.some.inj h)
  simp only [readValue, hnext, hskip, if_neg hhead]

theorem readValue_brace {bs cs : List Char} (hb : Blank bs) (hs : StartsValue cs) (p : Nat) :
    readValue (some item) ⟨'\x7b' :: (bs ++ cs), p⟩ =
      (readEntries item (cs.length + 1) [] ⟨cs, p + 1 + bs.length⟩).map
        fun r => (.object r.1, r.2) := by
  have hskip := skipBlanks_append hb (List.append_nil cs ▸ hs.noBlank []) (p + 1)
  obtain ⟨c, cs, rfl, -, -, hc, -⟩ := hs
  have hnext : (Cursor.mk ('\x7b' :: (bs ++ c :: cs)) p).advance 1 = ⟨bs ++ c :: cs, p + 1⟩ := rfl
  have hhead : (c :: cs).head? ≠ some '\x7d' := fun h => hc (Option.some.inj h)
  simp only [readValue, hnext, hskip, if_neg hhead]

/-- A row between brackets is taken if its parts are. -/
theorem takes_enclose (missing : Reason) {s : Style} (hs : s.Spaced) {opening : Char}
    (hm : Closes mark) {wrap : List β → Value}
    (hempty : ∀ rest p, readValue (some item) ⟨opening :: mark :: rest, p⟩ =
      .ok (wrap [], ⟨rest, p + 2⟩))
    (hrow : ∀ {bs cs : List Char}, Blank bs → StartsValue cs → ∀ p,
      readValue (some item) ⟨opening :: (bs ++ cs), p⟩ =
        (readRow mark missing part (cs.length + 1) [] ⟨cs, p + 1 + bs.length⟩).map
          fun r => (wrap r.1, r.2))
    {xs : List α} (ht : ∀ x ∈ xs, Takes part (write x) (o x))
    (hstart : ∀ x ∈ xs, StartsValue (write x)) (level : Nat) :
    Takes (readValue (some item)) (enclose s level opening mark (xs.map write))
      ((xs.mapM o).map wrap) := by
  intro rest p _
  cases hx : xs with
  | nil => exact ⟨p + 2, hempty rest p⟩
  | cons y ys =>
      have hne : xs ≠ [] := by simp [hx]
      obtain ⟨bs, hcomma, hb⟩ := hs.comma
      have hstarts : StartsValue
          (List.intercalate (',' :: (bs ++ lineBreak s (level + 1))) (xs.map write)
            ++ (lineBreak s level ++ mark :: rest)) := by
        rw [hx]
        exact (startsValue_intercalate (hstart y (by simp [hx])) _ _).append _
      have hlen := length_le_row (',' :: (bs ++ lineBreak s (level + 1))) hstart
        (lineBreak s level ++ mark :: rest)
      have hfinds := finds_row missing hm ht hstart hne
        (hb.append (blank_lineBreak s (level + 1))) (blank_lineBreak s level) hlen [] rest
        (p + 1 + (lineBreak s (level + 1)).length)
      rw [← hx, enclose_append level opening mark (by simpa using hne) rest, hcomma,
        List.cons_append, hrow (blank_lineBreak s (level + 1)) hstarts]
      simpa using hfinds.map wrap

/-- A list is taken if each item is. -/
theorem takes_list {s : Style} (hs : s.Spaced) {write : Value → List Char}
    {o : Value → Option Value} {xs : List Value} (ht : ∀ x ∈ xs, Takes item (write x) (o x))
    (hstart : ∀ x ∈ xs, StartsValue (write x)) (level : Nat) :
    Takes (readValue (some item)) (enclose s level '[' ']' (xs.map write))
      ((xs.mapM o).map .list) := by
  refine takes_enclose .value hs closes_bracket (fun _ _ => rfl) ?_ ht hstart level
  intro bs cs hb hc p
  rw [readValue_bracket hb hc, readItems_eq]

/-- An object is taken if the value of each entry is. -/
theorem takes_object {s : Style} (hs : s.Spaced) {write : Value → List Char}
    {o : Value → Option Value} {es : Entries} (ht : ∀ e ∈ es, Takes item (write e.2) (o e.2))
    (hstart : ∀ e ∈ es, StartsValue (write e.2)) (level : Nat) :
    Takes (readValue (some item)) (enclose s level '\x7b' '\x7d' (es.map (writeEntry s write)))
      ((es.mapM fun e => (o e.2).map (e.1, ·)).map fun es => .object (Entries.ofList es)) := by
  refine takes_enclose .propertyName hs closes_brace (fun _ _ => rfl) ?_
    (fun e he => takes_entry hs (hstart e he) (ht e he))
    (fun e _ => startsValue_writeEntry s write e) level
  intro bs cs hb hc p
  rw [readValue_brace hb hc, readEntries_eq]
  cases readRow '\x7d' .propertyName (readEntry item) (cs.length + 1) []
    ⟨cs, p + 1 + bs.length⟩ <;> rfl

end Cockpit.Json
