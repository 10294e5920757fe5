import Cockpit.Proofs.Json.Layout
import Mathlib.Data.List.Forall2

/-!
# Written values are read back

`Value.reread` is what a value is read back as, which depends neither on the style nor
on what follows (`Json.rereads`).  It comes part by part from what is inside a list or
an object.  A value may pass a limit of the reader, and then it is not read back.

`Value.Fits` says which values JSON can carry: integers that are not too long,
binary64 numbers that survive being written, objects without a key twice, and not
too much nesting.  Such a value is read back as it is (`Value.Fits.reread`), and its
text denotes it (`Json.read_write`).
-/

namespace Cockpit

open Json

/-! ## Objects -/

namespace Entries

theorem put_of_not_mem {es : Entries} {key : String} (h : key ∉ es.map Prod.fst) (v : Value) :
    es.put key v = es ++ [(key, v)] := by
  have hn : ¬ es.any (·.1 == key) := by
    intro ha
    obtain ⟨e, he, hk⟩ := List.any_eq_true.mp ha
    exact h (List.mem_map.mpr ⟨e, he, eq_of_beq hk⟩)
  rw [put, if_neg hn]

theorem foldl_put (ds : Entries) {es : Entries} (h : ((ds ++ es).map Prod.fst).Nodup) :
    es.foldl (fun d e => put d e.1 e.2) ds = ds ++ es := by
  induction es generalizing ds with
  | nil => exact (List.append_nil ds).symm
  | cons e es ih =>
      have hn : e.1 ∉ ds.map Prod.fst := by
        rw [List.map_append, List.map_cons] at h
        exact fun hm => (List.nodup_append.mp h).2.2 _ hm _ List.mem_cons_self rfl
      rw [List.foldl_cons, put_of_not_mem hn, ih _ (by simpa using h)]
      simp

/-- Entries without a key twice are an object as they are. -/
theorem ofList_of_nodup {es : Entries} (h : (es.map Prod.fst).Nodup) : ofList es = es :=
  foldl_put [] h

end Entries

/-! ## Values that fit -/

/-- Whether JSON can carry a value whose lists and objects nest to a depth at most. -/
inductive Value.Fits : (depth : Nat) → Value → Prop where
  | null (d : Nat) : Fits d .null
  | bool (d : Nat) (b : Bool) : Fits d (.bool b)
  | int (d : Nat) {n : Int} (h : Number.digitCount n.natAbs ≤ Number.digitLimit) : Fits d (.int n)
  | float (d : Nat) {x : Double} (h : x.Survives) : Fits d (.float x)
  | text (d : Nat) (s : String) : Fits d (.text s)
  | list {d : Nat} {xs : List Value} (h : ∀ x ∈ xs, Fits d x) : Fits (d + 1) (.list xs)
  | object {d : Nat} {es : Entries} (hk : (es.map Prod.fst).Nodup)
    (h : ∀ e ∈ es, Fits d e.2) : Fits (d + 1) (.object es)

namespace Json

/-! ## Numbers and names -/

theorem ne_of_isDigit {c d : Char} (hc : c.isDigit = true) (hd : d.isDigit = false) : c ≠ d := by
  rintro rfl
  rw [hc] at hd
  cases hd

/-- A numeral is none of the values that are written by name. -/
theorem find?_named_text (n : Numeral) (rest : List Char) :
    named.find? (fun e => e.1.toList.isPrefixOf (n.text ++ rest)) = none := by
  obtain ⟨c, cs, hb, hc⟩ := n.body_head
  have hne (d : Char) (hd : d.isDigit = false) : (d == c) = false := by
    simpa using (ne_of_isDigit hc hd).symm
  rw [List.find?_eq_none]
  intro e he
  rw [Numeral.text, Numeral.sign, hb]
  simp only [named, List.mem_cons, List.not_mem_nil, or_false] at he
  rcases he with rfl | rfl | rfl | rfl | rfl | rfl <;> cases n.negative <;>
    simp [List.isPrefixOf, hne]

theorem readNested_plain (d : Nat) {c : Char} (hq : c ≠ '"') (hl : c ≠ '[') (ho : c ≠ '\x7b')
    (cs : List Char) (p : Nat) : readNested d ⟨c :: cs, p⟩ = readPlain ⟨c :: cs, p⟩ := by
  have hv (inner : Option ValueReader) : readValue inner ⟨c :: cs, p⟩ = readPlain ⟨c :: cs, p⟩ := by
    rw [readValue.eq_def]
    dsimp only
    split
    · rename_i heq
      cases heq
    · rename_i heq
      exact absurd (List.cons.inj heq).1 hq
    · rename_i heq
      exact absurd (List.cons.inj heq).1 hl
    · rename_i heq
      exact absurd (List.cons.inj heq).1 ho
    · rfl
  cases d with
  | zero => exact hv none
  | succ d => exact hv _

/-- A numeral is read as a number. -/
theorem readNested_text (d : Nat) (n : Numeral) (rest : List Char) (p : Nat) :
    readNested d ⟨n.text ++ rest, p⟩ = readNumber ⟨n.text ++ rest, p⟩ := by
  have hp : readPlain ⟨n.text ++ rest, p⟩ = readNumber ⟨n.text ++ rest, p⟩ := by
    rw [readPlain, find?_named_text]
  obtain ⟨c, cs, ht, hq, hl, ho⟩ : ∃ c cs, n.text ++ rest = c :: cs ∧ c ≠ '"' ∧ c ≠ '[' ∧
      c ≠ '\x7b' := by
    obtain ⟨c, cs, hb, hc⟩ := n.body_head
    rw [Numeral.text, Numeral.sign, hb]
    cases n.negative with
    | true => exact ⟨'-', _, rfl, by decide, by decide, by decide⟩
    | false =>
        exact ⟨c, _, rfl, ne_of_isDigit hc rfl, ne_of_isDigit hc rfl, ne_of_isDigit hc rfl⟩
  rw [← hp, ht]
  exact readNested_plain d hq hl ho cs p

theorem startsValue_text (n : Numeral) : StartsValue n.text := by
  obtain ⟨c, cs, hb, hc⟩ := n.body_head
  rw [Numeral.text, Numeral.sign, hb]
  split
  · exact ⟨'-', _, rfl, rfl, by decide, by decide, by decide⟩
  · refine ⟨c, cs, rfl, ?_, ne_of_isDigit hc rfl, ne_of_isDigit hc rfl, ne_of_isDigit hc rfl⟩
    simp [isBlank, ne_of_isDigit hc]

/-- Every value starts like one. -/
theorem startsValue_writeAt (s : Style) (level : Nat) (v : Value) :
    StartsValue (writeAt s level v) := by
  have enclosed (opening closing : Char) (texts : List (List Char)) (hb : isBlank opening = false)
      (h1 : opening ≠ ']') (h2 : opening ≠ '\x7d') (h3 : opening ≠ '\uFEFF') :
      StartsValue (enclose s level opening closing texts) := by
    cases texts with
    | nil => exact ⟨opening, _, rfl, hb, h1, h2, h3⟩
    | cons t ts => exact ⟨opening, _, rfl, hb, h1, h2, h3⟩
  cases v with
  | null => exact ⟨'n', _, rfl, rfl, by decide, by decide, by decide⟩
  | bool b =>
      cases b with
      | true => exact ⟨'t', _, rfl, rfl, by decide, by decide, by decide⟩
      | false => exact ⟨'f', _, rfl, rfl, by decide, by decide, by decide⟩
  | int n =>
      rw [writeAt, ← Numeral.text_ofInt]
      exact startsValue_text _
  | float x =>
      rw [writeAt]
      cases x with
      | nan => exact ⟨'N', _, rfl, rfl, by decide, by decide, by decide⟩
      | inf s =>
          cases s with
          | true => exact ⟨'-', _, rfl, rfl, by decide, by decide, by decide⟩
          | false => exact ⟨'I', _, rfl, rfl, by decide, by decide, by decide⟩
      | finite s u =>
          obtain ⟨n, -, -, ht⟩ := Double.exists_numeral_write s u
          rw [Double.writeDouble_finite, ht, String.toList_ofList]
          exact startsValue_text n
  | text t => exact startsValue_writeString _ _
  | list xs => exact enclosed _ _ _ rfl (by decide) (by decide) (by decide)
  | object es => exact enclosed _ _ _ rfl (by decide) (by decide) (by decide)

end Json

/-! ## Rereading -/

/-- What a value is read back as once it is written, by a reader that may go down to a depth.  It
may not be read back at all. -/
def Value.reread (d : Nat) (v : Value) : Option Value :=
  match readNested d ⟨writeAt .wire 0 v, 0⟩ with
  | .ok r => some r.1
  | .error _ => none

namespace Json

/-- Whether the text of a value gives the same in every style, at every level and whatever
follows. -/
def Rereads (d : Nat) (v : Value) (v? : Option Value) : Prop :=
  ∀ s : Style, s.Spaced → ∀ level, Takes (readNested d) (writeAt s level v) v?

variable {d : Nat} {v : Value} {v? : Option Value}

theorem Rereads.eq (h : Rereads d v v?) : v.reread d = v? := by
  have hx := h .wire spaced_wire 0 [] 0 nofun
  rw [List.append_nil] at hx
  rw [Value.reread]
  cases v? with
  | some w =>
      obtain ⟨q, hq⟩ := hx
      rw [hq]
  | none =>
      obtain ⟨f, hf, -⟩ := hx
      rw [hf]

theorem Rereads.self (h : Rereads d v v?) : Rereads d v (v.reread d) := by rwa [h.eq]

theorem rereads_null (d : Nat) : Rereads d .null (some .null) := by
  intro s _ level rest p _
  refine ⟨p + 4, ?_⟩
  cases d <;> rfl

theorem rereads_bool (d : Nat) (b : Bool) : Rereads d (.bool b) (some (.bool b)) := by
  intro s _ level rest p _
  refine ⟨p + if b then 4 else 5, ?_⟩
  cases b <;> cases d <;> rfl

/-- An integer is read back unless it is too long. -/
theorem rereads_int (d : Nat) (n : Int) : Rereads d (.int n)
    (if Number.digitCount n.natAbs ≤ Number.digitLimit then some (.int n) else none) := by
  intro s _ level rest p hr
  have hread : readNested d ⟨(toString n).toList ++ rest, p⟩ =
      readNumber ⟨(toString n).toList ++ rest, p⟩ := by
    rw [← Numeral.text_ofInt]
    exact readNested_text d _ rest p
  rw [writeAt, hread]
  split
  · exact ⟨_, readNumber_toString ‹_› hr p⟩
  · rename_i hlong
    refine ⟨.numeralTooLong (Numeral.ofInt n).whole.length, ?_, rfl⟩
    rw [← Numeral.text_ofInt, (Numeral.ofInt n).readNumber_text hr p]
    exact (if_pos rfl).trans (if_pos (Nat.lt_of_not_le hlong))

/-- A number is read back as the number that its text denotes. -/
theorem rereads_float (d : Nat) (x : Double) : ∃ y, Rereads d (.float x) (some (.float y)) ∧
    Number.readDouble? (x.write Value.numberLayout) = some y := by
  cases x with
  | nan =>
      refine ⟨.nan, fun _ _ level rest p _ => ⟨p + 3, ?_⟩, Double.survives_nan⟩
      cases d <;> rfl
  | inf s =>
      refine ⟨.inf s, fun _ _ level rest p _ => ⟨p + if s then 9 else 8, ?_⟩, Double.survives_inf s⟩
      cases s <;> cases d <;> rfl
  | finite negative u =>
      obtain ⟨n, hn, hw, ht⟩ := Double.exists_numeral_write negative u
      obtain ⟨y, hy⟩ := n.exists_readDecimal? n.negative
      refine ⟨y, fun _ _ level rest p hr => ⟨p + n.text.length, ?_⟩, ?_⟩
      · rw [writeAt, Double.writeDouble_finite, ht, String.toList_ofList, readNested_text,
          n.readNumber_text hr p, hw, hy]
        rfl
      · rw [ht, n.readDouble?_text, hy]

theorem readNested_quote (d : Nat) (cs : List Char) (p : Nat) :
    readNested d ⟨'"' :: cs, p⟩ = (readString ⟨'"' :: cs, p⟩).map fun r => (.text r.1, r.2) := by
  cases d <;> rfl

theorem rereads_text (d : Nat) (t : String) : Rereads d (.text t) (some (.text t)) := by
  intro s _ level rest p _
  obtain ⟨q, hq⟩ := readString_writeString s.escapeAll t rest p
  refine ⟨q, ?_⟩
  have hread : readNested d ⟨writeString s.escapeAll t ++ rest, p⟩ =
      (readString ⟨writeString s.escapeAll t ++ rest, p⟩).map fun r => (.text r.1, r.2) :=
    readNested_quote d _ p
  rw [writeAt, hread, hq]
  rfl

theorem rereads_list {o : Value → Option Value} {xs : List Value}
    (h : ∀ x ∈ xs, Rereads d x (o x)) :
    Rereads (d + 1) (.list xs) ((xs.mapM o).map .list) := by
  intro s hs level
  rw [writeAt_list]
  exact takes_list hs (fun x hx => h x hx s hs (level + 1)) (fun x _ => startsValue_writeAt s _ x)
    level

theorem rereads_object {o : Value → Option Value} {es : Entries}
    (h : ∀ e ∈ es, Rereads d e.2 (o e.2)) :
    Rereads (d + 1) (.object es)
      ((es.mapM fun e => (o e.2).map (e.1, ·)).map fun es => .object (Entries.ofList es)) := by
  intro s hs level
  rw [writeAt_object]
  exact takes_object hs (fun e he => h e he s hs (level + 1))
    (fun e _ => startsValue_writeAt s _ e.2) level

/-- Without any depth left a list is not read, and neither is an object. -/
theorem rereads_list_zero (xs : List Value) : Rereads 0 (.list xs) none := by
  intro s _ level rest p _
  refine ⟨.tooDeep, ?_, rfl⟩
  rw [writeAt_list]
  cases xs <;> rfl

theorem rereads_object_zero (es : Entries) : Rereads 0 (.object es) none := by
  intro s _ level rest p _
  refine ⟨.tooDeep, ?_, rfl⟩
  rw [writeAt_object]
  cases es <;> rfl

mutual

/-- What a value is read back as does not depend on the style. -/
theorem rereads : (v : Value) → (d : Nat) → Rereads d v (v.reread d)
  | .null, d => (rereads_null d).self
  | .bool b, d => (rereads_bool d b).self
  | .int n, d => (rereads_int d n).self
  | .float x, d =>
      have ⟨_, hy, _⟩ := rereads_float d x
      hy.self
  | .text t, d => (rereads_text d t).self
  | .list xs, 0 => (rereads_list_zero xs).self
  | .list xs, d + 1 => (rereads_list (rereads_items xs d)).self
  | .object es, 0 => (rereads_object_zero es).self
  | .object es, d + 1 => (rereads_object (rereads_entries es d)).self

theorem rereads_items : (xs : List Value) → (d : Nat) → ∀ x ∈ xs, Rereads d x (x.reread d)
  | [], _ => nofun
  | x :: xs, d => List.forall_mem_cons.mpr ⟨rereads x d, rereads_items xs d⟩

theorem rereads_entries : (es : List (String × Value)) → (d : Nat) →
    ∀ e ∈ es, Rereads d e.2 (e.2.reread d)
  | [], _ => nofun
  | (_, x) :: es, d => List.forall_mem_cons.mpr ⟨rereads x d, rereads_entries es d⟩

end

end Json

theorem mapM_eq_some_iff {α β : Type} {f : α → Option β} {xs : List α} {ys : List β} :
    xs.mapM f = some ys ↔ List.Forall₂ (fun x y => f x = some y) xs ys := by
  induction xs generalizing ys with
  | nil => simp [eq_comm]
  | cons x xs ih =>
      rw [List.mapM_cons]
      cases ys with
      | nil => simp [Option.bind_eq_some_iff]
      | cons y ys =>
          rw [List.forall₂_cons, ← ih]
          simp [Option.bind_eq_some_iff]

namespace Value

variable {d : Nat}

theorem reread_list (xs : List Value) (d : Nat) :
    (Value.list xs).reread (d + 1) = (xs.mapM (reread d)).map .list :=
  (rereads_list (rereads_items xs d)).eq

theorem reread_object (es : Entries) (d : Nat) :
    (Value.object es).reread (d + 1) =
      (es.mapM fun e : String × Value => (e.2.reread d).map (e.1, ·)).map
        fun es => .object (Entries.ofList es) :=
  (rereads_object (rereads_entries es d)).eq

/-- A value that fits is read back as it is. -/
theorem Fits.reread {v : Value} (h : v.Fits d) : v.reread d = some v := by
  induction h with
  | null d => exact (rereads_null d).eq
  | bool d b => exact (rereads_bool d b).eq
  | int d hn => exact (rereads_int d _).eq.trans (if_pos hn)
  | @float d x hx =>
      obtain ⟨y, hreads, hy⟩ := rereads_float d x
      rw [hreads.eq, Option.some.inj (hy.symm.trans hx)]
  | text d t => exact (rereads_text d t).eq
  | @list d xs _ ih =>
      have hitems : xs.mapM (Value.reread d) = some xs :=
        mapM_eq_some_iff.mpr (List.forall₂_same.mpr ih)
      rw [reread_list, hitems]
      rfl
  | @object d es hk _ ih =>
      have hentries : (es.mapM fun e => (e.2.reread d).map (e.1, ·)) = some es :=
        mapM_eq_some_iff.mpr (List.forall₂_same.mpr fun e he => by rw [ih e he]; rfl)
      rw [reread_object, hentries]
      exact congrArg (some ∘ Value.object) (Entries.ofList_of_nodup hk)

/-- A value that fits is read back in every style. -/
theorem Fits.reads {s : Style} (hs : s.Spaced) {v : Value} (h : v.Fits d) (level : Nat) :
    Reads (readNested d) (writeAt s level v) v :=
  reads_iff.mpr (h.reread ▸ rereads v d s hs level)

end Value

/-- The text of a value is read as the value is read back, or the value passes a limit. -/
theorem Json.read_write_cases {s : Style} (hs : s.Spaced) (v : Value) :
    (∃ w, v.reread depthLimit = some w ∧ read (write s v) = .ok w) ∨
      v.reread depthLimit = none ∧ ∃ f, read (write s v) = .error f ∧ f.isSyntax = false := by
  have hstart := startsValue_writeAt s 0 v
  have hx := rereads v depthLimit s hs 0 [] 0 nofun
  have hskip := skipBlanks_of_noBlank (List.append_nil _ ▸ hstart.noBlank []) 0
  obtain ⟨c, cs, ht, -, -, -, hmark⟩ := hstart
  have hhead : ¬ (writeAt s 0 v).head? = some '\uFEFF' := by
    rw [ht]
    exact fun hc => hmark (Option.some.inj hc)
  rw [List.append_nil] at hx
  rw [read, write, String.toList_ofList]
  simp only [if_neg hhead, hskip]
  cases hv : v.reread depthLimit with
  | some w =>
      rw [hv] at hx
      obtain ⟨q, hq⟩ := hx
      rw [hq]
      exact .inl ⟨w, rfl, rfl⟩
  | none =>
      rw [hv] at hx
      obtain ⟨f, hf, hsyntax⟩ := hx
      rw [hf]
      exact .inr ⟨rfl, f, rfl, hsyntax⟩

/-- The text of a value that fits denotes the value. -/
theorem Json.read_write {s : Style} (hs : s.Spaced) {v : Value} (h : v.Fits depthLimit) :
    read (write s v) = .ok v := by
  rcases read_write_cases hs v with ⟨w, hw, hread⟩ | ⟨hnone, -⟩
  · rw [hread, Option.some.inj (hw.symm.trans h.reread)]
  · cases hnone.symm.trans h.reread

/-- A text that goes on behind a value denotes nothing. -/
theorem Json.read_write_append {s : Style} (hs : s.Spaced) {v : Value} (h : v.Fits depthLimit)
    {more : String} {c : Char} {cs : List Char} (hmore : more.toList = c :: cs)
    (hc : isBlank c = false) (hn : EndsNumber (c :: cs)) :
    ∃ p, read (write s v ++ more) = .error (.syntaxError .extra p) := by
  have hstart := startsValue_writeAt s 0 v
  obtain ⟨q, hq⟩ := h.reads hs 0 (c :: cs) 0 hn
  have hskip := skipBlanks_of_noBlank (hstart.noBlank (c :: cs)) 0
  have hskip' := skipBlanks_of_noBlank (noBlank_cons hc cs) q
  obtain ⟨d, ds, ht, -, -, -, hmark⟩ := hstart.append (c :: cs)
  have hhead : ¬ (writeAt s 0 v ++ c :: cs).head? = some '\uFEFF' := by
    rw [ht]
    exact fun hd => hmark (Option.some.inj hd)
  refine ⟨q, ?_⟩
  rw [read, write, String.toList_append, String.toList_ofList, hmore]
  simp only [if_neg hhead, hskip, hq]
  show (if (Cursor.mk (c :: cs) q).skipBlanks.rest.isEmpty then _ else _) = _
  rw [hskip']
  rfl

end Cockpit
