import Cockpit.Json.Reader

/-!
# Numerals

A numeral is a number as it is written in JSON: a sign, digits, places after a
point and an exponent.  `Numeral.readNumber_text` says that the reader takes
exactly the numeral, whatever follows it, as long as that cannot continue a
number.  `Numeral.readDouble?_text` says that a numeral on its own reads as the
same binary64 number.
-/

namespace Cockpit.Json

open Number (ofDigits)

/-! ## Runs of digits -/

/-- Whether no digit comes next. -/
def NoDigit (cs : List Char) : Prop := ∀ c ∈ cs.head?, c.isDigit = false

/-- Whether nothing comes next that could continue a number. -/
def EndsNumber (cs : List Char) : Prop :=
  ∀ c ∈ cs.head?, c.isDigit = false ∧ c ≠ '.' ∧ c ≠ 'e' ∧ c ≠ 'E'

theorem EndsNumber.noDigit {cs : List Char} (h : EndsNumber cs) : NoDigit cs :=
  fun c hc => (h c hc).1

theorem noDigit_cons {c : Char} (h : c.isDigit = false) (cs : List Char) : NoDigit (c :: cs) := by
  intro d hd
  cases hd
  exact h

theorem takeWhile_digits {ds cs : List Char} (hd : ∀ c ∈ ds, c.isDigit = true) (hc : NoDigit cs) :
    (ds ++ cs).takeWhile Char.isDigit = ds := by
  rw [List.takeWhile_append_of_pos hd]
  cases cs with
  | nil => simp
  | cons c cs => rw [List.takeWhile_cons_of_neg (by simp [hc c rfl]), List.append_nil]

theorem dropWhile_digits {ds cs : List Char} (hd : ∀ c ∈ ds, c.isDigit = true) (hc : NoDigit cs) :
    (ds ++ cs).dropWhile Char.isDigit = cs := by
  have h := List.takeWhile_append_dropWhile (p := Char.isDigit) (l := ds ++ cs)
  rw [takeWhile_digits hd hc] at h
  exact List.append_cancel_left h

/-! ## Numerals -/

/-- A number as it is written in JSON. -/
structure Numeral where
  negative : Bool
  /-- The digits before the point, with no zero in front of others. -/
  whole : List Char
  /-- The digits after the point, if there is one. -/
  places : List Char
  /-- Whether the exponent is negative and its digits, if there is one. -/
  exponent : Option (Bool × List Char)
  whole_ne : whole ≠ []
  whole_digits : ∀ c ∈ whole, c.isDigit = true
  whole_lead : whole = ['0'] ∨ whole.head? ≠ some '0'
  places_digits : ∀ c ∈ places, c.isDigit = true
  exponent_ne : ∀ e ∈ exponent, e.2 ≠ []
  exponent_digits : ∀ e ∈ exponent, ∀ c ∈ e.2, c.isDigit = true

namespace Numeral

variable (n : Numeral)

def sign : List Char := if n.negative then ['-'] else []

def fraction : List Char := if n.places = [] then [] else '.' :: n.places

def power : List Char :=
  match n.exponent with
  | none => []
  | some (negative, ds) => 'e' :: (if negative then '-' else '+') :: ds

/-- A numeral without its sign. -/
def body : List Char := n.whole ++ n.fraction ++ n.power

def text : List Char := n.sign ++ n.body

/-- Whether a numeral denotes an integer by its form. -/
def isWhole : Bool := n.places.isEmpty && n.exponent.isNone

/-! ## Parts that the reader finds -/

variable {n}

theorem endsNumber_power {rest : List Char} (h : EndsNumber rest) :
    NoDigit (n.power ++ rest) ∧ (n.power ++ rest).head? ≠ some '.' := by
  rw [power]
  cases n.exponent with
  | none =>
      refine ⟨h.noDigit, fun hd => ?_⟩
      exact (h '.' hd).2.1 rfl
  | some e =>
      refine ⟨noDigit_cons rfl _, fun hd => ?_⟩
      cases hd

theorem noDigit_fraction {rest : List Char} (h : EndsNumber rest) :
    NoDigit (n.fraction ++ (n.power ++ rest)) := by
  rw [fraction]
  split
  · exact (endsNumber_power h).1
  · exact noDigit_cons rfl _

theorem wholeOf_text {cs : List Char} (h : NoDigit cs) : wholeOf (n.whole ++ cs) = n.whole := by
  rcases n.whole_lead with h0 | h0
  · rw [h0]
    rfl
  · cases hw : n.whole with
    | nil => exact absurd hw n.whole_ne
    | cons c ds =>
        have hc : c ≠ '0' := fun he => h0 (by rw [hw, he]; rfl)
        have hd : ∀ x ∈ c :: ds, x.isDigit = true := hw ▸ n.whole_digits
        have hr : wholeOf (c :: ds ++ cs) = (c :: ds ++ cs).takeWhile Char.isDigit := by
          rw [List.cons_append]
          unfold wholeOf
          split
          · rename_i heq
            exact absurd (List.cons.inj heq).1 hc
          · rfl
        rw [hr, takeWhile_digits hd h]

theorem fractionOf_text {cs : List Char} (h : NoDigit cs) (hp : cs.head? ≠ some '.') :
    fractionOf (n.fraction ++ cs) = n.fraction := by
  rw [fraction]
  split
  · rw [List.nil_append]
    cases cs with
    | nil => rfl
    | cons c cs =>
        unfold fractionOf
        split
        · rename_i heq
          cases heq
          exact absurd rfl hp
        · rfl
  · rename_i hne
    rw [List.cons_append, fractionOf, takeWhile_digits n.places_digits h]
    split
    · exact absurd ‹_› hne
    · rfl

theorem exponentOf_signed {mark : Char} {ds cs : List Char} (hm : mark = '-' ∨ mark = '+')
    (hne : ds ≠ []) (hd : ∀ c ∈ ds, c.isDigit = true) (hc : NoDigit cs) :
    exponentOf ('e' :: mark :: ds ++ cs) = 'e' :: mark :: ds := by
  cases ds with
  | nil => exact absurd rfl hne
  | cons d ds =>
      have hrun := takeWhile_digits hd hc
      rw [List.cons_append] at hrun
      rcases hm with rfl | rfl
      · simp [exponentOf, hrun]
      · simp [exponentOf, hrun]

theorem exponentOf_text {cs : List Char} (h : EndsNumber cs) :
    exponentOf (n.power ++ cs) = n.power := by
  rw [power]
  cases he : n.exponent with
  | none =>
      cases cs with
      | nil => rfl
      | cons c cs =>
          obtain ⟨-, -, h1, h2⟩ := h c rfl
          exact if_neg (by simp [h1, h2])
  | some e =>
      obtain ⟨s, ds⟩ := e
      refine exponentOf_signed ?_ (n.exponent_ne _ he) (n.exponent_digits _ he) h.noDigit
      cases s
      · exact Or.inr rfl
      · exact Or.inl rfl

/-! ## Reading -/

theorem isEmpty_parts (n : Numeral) : (n.fraction.isEmpty && n.power.isEmpty) = n.isWhole := by
  rw [fraction, power, isWhole]
  cases n.places <;> cases n.exponent <;> rfl

/-- The first character of a body is a digit. -/
theorem body_head (n : Numeral) : ∃ c cs, n.body = c :: cs ∧ c.isDigit = true := by
  cases hw : n.whole with
  | nil => exact absurd hw n.whole_ne
  | cons c ds =>
      refine ⟨c, ds ++ n.fraction ++ n.power, by rw [body, hw]; rfl, n.whole_digits c ?_⟩
      rw [hw]
      exact List.mem_cons_self

theorem head_text (n : Numeral) (rest : List Char) :
    ((n.text ++ rest).head? == some '-') = n.negative := by
  obtain ⟨c, cs, hb, hc⟩ := n.body_head
  rw [text, sign, hb]
  cases n.negative with
  | true => rfl
  | false =>
      have hne : c ≠ '-' := by
        rintro rfl
        cases hc
      simpa using hne

theorem drop_text (n : Numeral) (rest : List Char) :
    (if n.negative then (n.text ++ rest).drop 1 else n.text ++ rest) = n.body ++ rest := by
  rw [text, sign]
  cases n.negative <;> rfl

theorem length_text (n : Numeral) :
    n.text.length = if n.negative then n.whole.length + n.fraction.length + n.power.length + 1
      else n.whole.length + n.fraction.length + n.power.length := by
  rw [text, sign, body]
  cases n.negative <;> simp <;> omega

/-- The reader takes exactly the numeral. -/
theorem readNumber_text (n : Numeral) {rest : List Char} (h : EndsNumber rest) (p : Nat) :
    readNumber ⟨n.text ++ rest, p⟩ =
      if n.isWhole then
        if Number.digitLimit < n.whole.length then .error (.numeralTooLong n.whole.length)
        else .ok (.int (if n.negative then -(ofDigits n.whole : Int) else ofDigits n.whole),
          ⟨rest, p + n.text.length⟩)
      else match Number.readDecimal? n.negative n.body with
        | some x => .ok (.float x, ⟨rest, p + n.text.length⟩)
        | none => .error (.syntaxError .value p) := by
  have hbody : n.body ++ rest = n.whole ++ (n.fraction ++ (n.power ++ rest)) := by
    rw [body]
    simp only [List.append_assoc]
  have hwhole : wholeOf (n.body ++ rest) = n.whole := by
    rw [hbody]
    exact wholeOf_text (noDigit_fraction h)
  have hfraction : fractionOf ((n.body ++ rest).drop n.whole.length) = n.fraction := by
    rw [hbody, List.drop_left]
    exact fractionOf_text (endsNumber_power h).1 (endsNumber_power h).2
  have hpower : exponentOf ((n.body ++ rest).drop (n.whole.length + n.fraction.length)) = n.power := by
    rw [hbody, ← List.drop_drop, List.drop_left, List.drop_left]
    exact exponentOf_text h
  have hne : n.whole.isEmpty = false := by simpa using n.whole_ne
  have hafter : (n.text ++ rest).drop n.text.length = rest := List.drop_left
  unfold readNumber
  simp only [head_text, drop_text, hwhole, hfraction, hpower, hne, isEmpty_parts, ← length_text,
    Cursor.advance, Cursor.fail, hafter, Bool.false_eq_true, if_false]
  rfl

/-! ## Reading a numeral on its own -/

/-- Whether a character may stand in a numeral. -/
def IsPart (c : Char) : Prop := c.isDigit = true ∨ c = '.' ∨ c = 'e' ∨ c = '+' ∨ c = '-'

theorem isPart_fraction (n : Numeral) : ∀ c ∈ n.fraction, IsPart c := by
  intro c hc
  rw [fraction] at hc
  split at hc
  · cases hc
  · rcases List.mem_cons.mp hc with rfl | hc
    · exact Or.inr (Or.inl rfl)
    · exact Or.inl (n.places_digits c hc)

theorem isPart_power (n : Numeral) : ∀ c ∈ n.power, IsPart c := by
  intro c hc
  rw [power] at hc
  cases he : n.exponent with
  | none =>
      rw [he] at hc
      cases hc
  | some e =>
      obtain ⟨s, ds⟩ := e
      rw [he] at hc
      rcases List.mem_cons.mp hc with rfl | hc
      · exact Or.inr (Or.inr (Or.inl rfl))
      · rcases List.mem_cons.mp hc with rfl | hc
        · cases s
          · exact Or.inr (Or.inr (Or.inr (Or.inl rfl)))
          · exact Or.inr (Or.inr (Or.inr (Or.inr rfl)))
        · exact Or.inl (n.exponent_digits _ he c hc)

theorem isPart_body (n : Numeral) : ∀ c ∈ n.body, IsPart c := by
  intro c hc
  rcases List.mem_append.mp hc with hc | hc
  · rcases List.mem_append.mp hc with hc | hc
    · exact Or.inl (n.whole_digits c hc)
    · exact n.isPart_fraction c hc
  · exact n.isPart_power c hc

theorem isPart_text (n : Numeral) : ∀ c ∈ n.text, IsPart c := by
  intro c hc
  rcases List.mem_append.mp hc with hc | hc
  · rw [sign] at hc
    split at hc
    · cases List.mem_singleton.mp hc
      exact Or.inr (Or.inr (Or.inr (Or.inr rfl)))
    · cases hc
  · exact n.isPart_body c hc

theorem toNat_of_isDigit {c : Char} (h : c.isDigit = true) : 48 ≤ c.toNat ∧ c.toNat ≤ 57 := by
  obtain ⟨h1, h2⟩ := Bool.and_eq_true_iff.mp h
  exact ⟨UInt32.le_iff_toNat_le.mp (of_decide_eq_true h1), UInt32.le_iff_toNat_le.mp (of_decide_eq_true h2)⟩

theorem IsPart.toNat_lt {c : Char} (h : IsPart c) : 32 < c.toNat ∧ c.toNat < 0x7F ∧ c ≠ '_' := by
  rcases h with h | rfl | rfl | rfl | rfl
  · obtain ⟨h1, h2⟩ := toNat_of_isDigit h
    refine ⟨by omega, by omega, ?_⟩
    rintro rfl
    cases h
  all_goals decide

/-- Text that is neither blank nor beyond ASCII is not changed before it is read. -/
theorem foldText_of_isPart {cs : List Char} (h : ∀ c ∈ cs, IsPart c) : Number.foldText cs = cs := by
  have hascii : (cs.all fun c => c.toNat < 0x80) = true := by
    rw [List.all_eq_true]
    intro c hc
    have := (h c hc).toNat_lt
    exact decide_eq_true (by omega)
  have hblank : ∀ c ∈ cs, Text.isAsciiBlank c = false := by
    intro c hc
    have := (h c hc).toNat_lt
    have hs : c ≠ ' ' := by
      rintro rfl
      exact absurd this.1 (by decide)
    simp [Text.isAsciiBlank, hs]
    omega
  have hdrop (ds : List Char) (hd : ∀ c ∈ ds, Text.isAsciiBlank c = false) :
      ds.dropWhile Text.isAsciiBlank = ds := by
    cases ds with
    | nil => rfl
    | cons d ds => exact List.dropWhile_cons_of_neg (by simp [hd d List.mem_cons_self])
  rw [Number.foldText, if_pos hascii, hdrop cs hblank,
    hdrop cs.reverse fun c hc => hblank c (List.mem_reverse.mp hc), List.reverse_reverse]

theorem underscoresFit_of_not_mem {cs : List Char} {previous : Option Char}
    (hp : previous ≠ some '_') (h : ∀ c ∈ cs, c ≠ '_') :
    Number.underscoresFit previous cs = true := by
  induction cs generalizing previous with
  | nil => simpa [Number.underscoresFit] using hp
  | cons c cs ih =>
      have hc := h c List.mem_cons_self
      have hcs : Number.underscoresFit (some c) cs = true :=
        ih (by simpa using hc) fun d hd => h d (List.mem_cons_of_mem c hd)
      simp [Number.underscoresFit, hc, hp, hcs]

theorem splitSign_text (n : Numeral) : Number.splitSign n.text = (n.negative, n.body) := by
  obtain ⟨c, cs, hb, hc⟩ := n.body_head
  rw [text, sign, hb]
  cases n.negative with
  | true => rfl
  | false =>
      simp only [Bool.false_eq_true, if_false, List.nil_append]
      unfold Number.splitSign
      split
      · rename_i heq
        cases heq
        cases hc
      · rename_i heq
        cases heq
        cases hc
      · rfl

/-- A numeral on its own is read by its digits. -/
theorem readDouble?_text (n : Numeral) :
    Number.readDouble? (String.ofList n.text) = Number.readDecimal? n.negative n.body := by
  have hmark : ∀ c ∈ n.body, c ≠ '_' := fun c hc => (n.isPart_body c hc).toNat_lt.2.2
  have hfilter : n.body.filter (· != '_') = n.body := by
    rw [List.filter_eq_self]
    intro c hc
    simpa using hmark c hc
  have hname (d : Char) (ds : List Char) (hd : d = 'i' ∨ d = 'n') :
      String.ofList (n.body.map Char.toLower) ≠ String.ofList (d :: ds) := by
    obtain ⟨c, cs, hb, hc⟩ := n.body_head
    rw [hb]
    intro he
    have hl : c.toLower = d := (List.cons.inj (String.ofList_inj.mp he)).1
    obtain ⟨-, h57⟩ := toNat_of_isDigit hc
    have hlow : c.toLower = c := by
      refine dif_neg ?_
      intro hu
      have h65 : 65 ≤ c.toNat := UInt32.le_iff_toNat_le.mp hu.1
      omega
    rw [← hl, hlow] at hd
    rcases hd with rfl | rfl <;> cases hc
  rw [Number.readDouble?, String.toList_ofList, foldText_of_isPart n.isPart_text, splitSign_text]
  have hfit : Number.underscoresFit none n.body = true :=
    underscoresFit_of_not_mem (by simp) hmark
  simp only [hfit, hfilter]
  rw [if_neg, if_neg]
  · rfl
  · exact hname _ _ (Or.inr rfl)
  · rintro (h | h)
    · exact hname _ _ (Or.inl rfl) h
    · exact hname _ _ (Or.inl rfl) h

theorem exists_readExponent? (n : Numeral) : ∃ e, Number.readExponent? n.power = some e := by
  rw [power]
  cases he : n.exponent with
  | none => exact ⟨0, rfl⟩
  | some e =>
      obtain ⟨negative, ds⟩ := e
      have hne : ds.isEmpty = false := by simpa using n.exponent_ne _ he
      have hall : ds.all Char.isDigit = true := List.all_eq_true.mpr (n.exponent_digits _ he)
      cases negative with
      | true =>
          exact ⟨-(ofDigits ds : Int), by simp [Number.readExponent?, Number.splitSign, hne, hall]⟩
      | false => exact ⟨ofDigits ds, by simp [Number.readExponent?, Number.splitSign, hne, hall]⟩

/-- Every numeral denotes a binary64 number. -/
theorem exists_readDecimal? (n : Numeral) (negative : Bool) :
    ∃ x, Number.readDecimal? negative n.body = some x := by
  obtain ⟨e, he⟩ := n.exists_readExponent?
  have hends : EndsNumber [] := nofun
  have hpower := endsNumber_power (n := n) hends
  rw [List.append_nil] at hpower
  have hbody : n.body = n.whole ++ (n.fraction ++ n.power) := List.append_assoc _ _ _
  have hrest : NoDigit (n.fraction ++ n.power) := by
    have h := noDigit_fraction (n := n) hends
    rwa [List.append_nil] at h
  have hne : n.whole.isEmpty = false := by simpa using n.whole_ne
  rw [Number.readDecimal?, hbody, takeWhile_digits n.whole_digits hrest,
    dropWhile_digits n.whole_digits hrest]
  by_cases hp : n.places = []
  · rw [fraction, if_pos hp, List.nil_append]
    split
    · rename_i heq
      split at heq
      · rename_i hdot
        rw [hdot] at hpower
        exact absurd rfl hpower.2
      · cases heq
        rw [if_neg (by simp [hne]), he]
        exact ⟨_, rfl⟩
  · rw [fraction, if_neg hp, List.cons_append]
    simp only [takeWhile_digits n.places_digits hpower.1, dropWhile_digits n.places_digits hpower.1,
      hne, he, Bool.false_and, Bool.false_eq_true, if_false]
    exact ⟨_, rfl⟩

end Numeral

end Cockpit.Json
