import Cockpit.Proofs.Json.Numbers
import Cockpit.Proofs.Keypad.Entries

/-!
# Signs and magnitudes on keypads

A `Keypad.Figure` is a number as it is written: a minus or none, and decimal digits.  A text
shows it with separators anywhere.

A keypad that takes signs enters a minus as two presses of the sign key, which usually is the
zero.  So the keys of a figure are those of its digits with two more zeros in front if it has a
minus (`Keypad.marked`), and `Keypad.marked_eq_iff` says when they can be mistaken.

Cleaning leaves the decimal numeral of the magnitude, which never starts with two zeros.  So sign
and magnitude can be told from the keys (`Keypad.Figure.ofCleanNumber_canonical`).  Digits that
are entered as they stand may start with two zeros, and these pass for a minus
(`Keypad.Figure.ofNumber_eq_iff`).
-/

namespace Cockpit

open Number (decimalDigits ofDigits)

/-! ## Decimal numerals -/

/-- Zeros in front add nothing. -/
theorem ofDigits_dropWhile_zero (cs : List Char) :
    ofDigits (cs.dropWhile (· = '0')) = ofDigits cs := by
  induction cs with
  | nil => rfl
  | cons c cs ih =>
      rw [List.dropWhile_cons]
      split
      · rename_i hc
        rw [ih, of_decide_eq_true hc]
        rfl
      · rfl

/-- A digit is that of its value. -/
theorem digitChar_of_isDigit {c : Char} (h : c.isDigit = true) :
    Nat.digitChar (c.toNat - 48) = c := by
  obtain ⟨hlow, hhigh⟩ := Json.Numeral.toNat_of_isDigit h
  refine Char.toNat_inj.mp ?_
  rw [Nat.toNat_digitChar_of_lt_ten (by omega)]
  omega

/-- Digits behind the numeral of a positive number continue it. -/
theorem decimalDigits_append {n : Nat} (hn : 0 < n) {ds : List Char}
    (hd : ∀ c ∈ ds, c.isDigit = true) :
    decimalDigits n ++ ds =
      decimalDigits (ds.foldl (fun n c => 10 * n + (c.toNat - 48)) n) := by
  induction ds generalizing n with
  | nil => exact List.append_nil _
  | cons d ds ih =>
      have hdigit := hd d List.mem_cons_self
      obtain ⟨hlow, hhigh⟩ := Json.Numeral.toNat_of_isDigit hdigit
      have hlast : decimalDigits n ++ [d] = decimalDigits (10 * n + (d.toNat - 48)) := by
        have hvalue : d.toNat - 48 < 10 := by omega
        have h := Nat.toDigits_append_toDigits (b := 10) (by decide) hn hvalue
        rwa [Nat.toDigits_of_lt_base hvalue, digitChar_of_isDigit hdigit] at h
      calc decimalDigits n ++ d :: ds
          = decimalDigits n ++ [d] ++ ds := (List.append_cons _ d ds)
        _ = decimalDigits (10 * n + (d.toNat - 48)) ++ ds := by rw [hlast]
        _ = _ := ih (by omega) fun c hc => hd c (List.mem_cons_of_mem d hc)

/-- Digits with no zero in front are the numeral of what they denote. -/
theorem IsLeading.eq_decimalDigits {ds : List Char} (h : IsLeading ds) :
    ds = decimalDigits (ofDigits ds) := by
  obtain ⟨d, ds, rfl⟩ := List.exists_cons_of_ne_nil h.ne_nil
  have hdigit := h.digits d List.mem_cons_self
  obtain ⟨hlow, hhigh⟩ := Json.Numeral.toNat_of_isDigit hdigit
  have hne : d.toNat ≠ 48 := fun he => h.head (congrArg some (Char.toNat_inj.mp he))
  have hfirst : decimalDigits (d.toNat - 48) = [d] := by
    rw [decimalDigits, Nat.toDigits_of_lt_base (by omega), digitChar_of_isDigit hdigit]
  have hrest := decimalDigits_append (n := d.toNat - 48) (by omega)
    fun c hc => h.digits c (List.mem_cons_of_mem d hc)
  rw [hfirst] at hrest
  simpa [ofDigits] using hrest

/-- No decimal numeral starts with two zeros. -/
theorem decimalDigits_ne_zeros (n : Nat) (cs : List Char) : decimalDigits n ≠ '0' :: '0' :: cs := by
  rcases Nat.eq_zero_or_pos n with rfl | hn
  · intro h
    cases h
  · intro h
    exact (isLeading_decimalDigits hn).head (by rw [h]; rfl)

theorem decimalDigits_injective : Function.Injective decimalDigits :=
  Function.LeftInverse.injective ofDigits_decimalDigits

theorem toList_toString (n : Nat) : (toString n).toList = decimalDigits n := Nat.toList_repr

namespace Keypad

/-- Digits without their leading zeros are the numeral of what they denote. -/
theorem withoutLeadingZeros_digits {cs : List Char} (h : ∀ c ∈ cs, c.isDigit = true) :
    (withoutLeadingZeros (String.ofList cs)).toList = decimalDigits (ofDigits cs) := by
  rw [← ofDigits_dropWhile_zero, withoutLeadingZeros, String.toList_ofList]
  split
  · rename_i hnil
    rw [hnil]
    rfl
  · rename_i hne
    have hleading : IsLeading (cs.dropWhile (· = '0')) := by
      refine ⟨hne, fun c hc => h c ((List.dropWhile_suffix _).subset hc), fun hzero => ?_⟩
      have := List.head?_dropWhile_not (· = '0') cs
      rw [hzero] at this
      cases this
    rw [String.toList_ofList]
    exact hleading.eq_decimalDigits

/-! ## Figures -/

/-- A number as it is written: a minus or none, and digits. -/
structure Figure where
  negative : Bool
  digits : List Char
  ne_nil : digits ≠ []
  isDigit : ∀ c ∈ digits, c.isDigit = true

namespace Figure

/-- The characters of a figure. -/
def text (f : Figure) : List Char := if f.negative then '-' :: f.digits else f.digits

/-- The number that a figure denotes but for its sign. -/
def magnitude (f : Figure) : Nat := ofDigits f.digits

/-- Whether a text shows a figure, with separators anywhere. -/
def Shown (f : Figure) (s : String) : Prop := Sprinkled f.text s.toList

variable {f g : Figure} {s t : String} {signed : Bool} {sign : Value}

theorem not_mem_separators {c : Char} (h : c.isDigit = true) : c ∉ separators := by
  intro hc
  simp only [separators, List.mem_cons, List.not_mem_nil, or_false] at hc
  rcases hc with rfl | rfl | rfl | rfl | rfl | rfl | rfl | rfl <;> cases h

/-- A text shows a figure just if the figure is what is entered of it. -/
theorem shown_iff : f.Shown s ↔ entered s.toList = f.text := by
  have hdigits : ∀ c ∈ f.digits, c ∉ separators := fun c hc => not_mem_separators (f.isDigit c hc)
  refine sprinkled_iff fun c hc => ?_
  rw [text] at hc
  split at hc
  · rcases List.mem_cons.mp hc with rfl | hc
    · decide
    · exact hdigits c hc
  · exact hdigits c hc

theorem Shown.ne_empty (h : f.Shown s) : s ≠ "" := by
  rintro rfl
  have htext : [] = f.text := shown_iff.mp h
  rw [text] at htext
  split at htext
  · cases htext
  · exact f.ne_nil htext.symm

/-- Digits do not start with a minus. -/
theorem head_ne_minus {cs : List Char} (h : ∀ c ∈ cs, c.isDigit = true) :
    cs.head? ≠ some '-' := by
  intro hminus
  obtain ⟨ds, rfl⟩ := List.head?_eq_some_iff.mp hminus
  have hdigit := h '-' List.mem_cons_self
  cases hdigit

/-- The keys of a figure are those of its sign and its digits. -/
theorem ofNumber_shown (h : f.Shown s) :
    ofNumber s signed sign =
      (if f.negative then minusKeys signed sign else []) ++ keys f.digits := by
  have htext := shown_iff.mp h
  rw [text] at htext
  split
  · rw [if_pos ‹_›] at htext
    exact ofNumber_minus htext
  · rw [if_neg ‹_›] at htext
    rw [ofNumber_plain (htext ▸ head_ne_minus f.isDigit), htext]
    rfl

/-- The keys of a figure that is cleaned are those of its sign and of the numeral of its
magnitude. -/
theorem ofCleanNumber_shown (h : f.Shown s) :
    ofCleanNumber s signed sign =
      (if f.negative then minusKeys signed sign else []) ++ keys (decimalDigits f.magnitude) := by
  have htext := shown_iff.mp h
  rw [text] at htext
  split
  · rw [if_pos ‹_›] at htext
    rw [ofCleanNumber_minus htext, withoutLeadingZeros_digits f.isDigit]
    rfl
  · rw [if_neg ‹_›] at htext
    have hnumeral := withoutLeadingZeros_digits f.isDigit
    have hdigits : ∀ c ∈ decimalDigits f.magnitude, c ∉ separators := fun c hc =>
      not_mem_separators (isDigit_decimalDigits _ c hc)
    rw [ofCleanNumber_plain h.ne_empty (htext ▸ head_ne_minus f.isDigit), htext, ofNumber_plain]
    · rw [hnumeral, ← magnitude, entered_eq_self hdigits]
      rfl
    · rw [hnumeral, ← magnitude, entered_eq_self hdigits]
      exact head_ne_minus (isDigit_decimalDigits f.magnitude)

end Figure

/-! ## Signs as zeros -/

/-- Digits with two zeros in front for a minus. -/
def marked (negative : Bool) (ds : List Char) : List Char :=
  if negative then '0' :: '0' :: ds else ds

/-- The sign key is the key of a zero. -/
theorem keys_marked (negative : Bool) (ds : List Char) :
    (if negative then minusKeys true (.text signKey) else []) ++ keys ds =
      keys (marked negative ds) := by
  cases negative <;> rfl

/-- A minus can be taken for two zeros only. -/
theorem marked_eq_iff {m n : Bool} {ds es : List Char} :
    marked m ds = marked n es ↔
      (m = n ∧ ds = es) ∨ (m = false ∧ n = true ∧ ds = '0' :: '0' :: es) ∨
        (n = false ∧ m = true ∧ es = '0' :: '0' :: ds) := by
  cases m <;> cases n <;> simp [marked, eq_comm]

namespace Figure

variable {f g : Figure} {s t : String}

theorem ofNumber_marked (h : f.Shown s) :
    ofNumber s true (.text signKey) = keys (marked f.negative f.digits) := by
  rw [ofNumber_shown h, keys_marked]

theorem ofCleanNumber_marked (h : f.Shown s) :
    ofCleanNumber s true (.text signKey) =
      keys (marked f.negative (decimalDigits f.magnitude)) := by
  rw [ofCleanNumber_shown h, keys_marked]

/-- The keys of a cleaned figure are two presses of the sign key for a minus, or a key for the
minus itself if the keypad takes no signs, and the decimal numeral of its magnitude.  With the
usual sign key they tell sign and magnitude. -/
theorem ofCleanNumber_canonical (h : f.Shown s) (sign : Value) :
    ofCleanNumber s true sign =
      (if f.negative then [sign, sign] else []) ++ keys (toString f.magnitude).toList ∧
    ofCleanNumber s false sign =
      (if f.negative then [.text "-"] else []) ++ keys (toString f.magnitude).toList ∧
    ∀ {g : Figure} {t : String}, g.Shown t →
      ofCleanNumber s true (.text signKey) = ofCleanNumber t true (.text signKey) →
        f.negative = g.negative ∧ f.magnitude = g.magnitude := by
  rw [toList_toString]
  refine ⟨ofCleanNumber_shown h, ofCleanNumber_shown h, fun {g t} ht he => ?_⟩
  rw [ofCleanNumber_marked h, ofCleanNumber_marked ht] at he
  rcases marked_eq_iff.mp (keys_injective he) with ⟨hsign, hsame⟩ | ⟨-, -, hzeros⟩ | ⟨-, -, hzeros⟩
  · exact ⟨hsign, decimalDigits_injective hsame⟩
  · exact absurd hzeros (decimalDigits_ne_zeros _ _)
  · exact absurd hzeros (decimalDigits_ne_zeros _ _)

/-- Minus seven. -/
def minusSeven : Figure := ⟨true, ['7'], List.cons_ne_nil _ _, List.all_eq_true.mp rfl⟩

/-- Minus seven with zeros in front. -/
def minusPadded : Figure := ⟨true, ['0', '0', '7'], List.cons_ne_nil _ _, List.all_eq_true.mp rfl⟩

theorem shown_minusSeven : minusSeven.Shown "-7" := shown_iff.mpr (by decide +kernel)

theorem ofCleanNumber_canonical_padded :
    minusPadded.Shown "’-0,0:7" ∧ minusSeven.Shown "-7" ∧
      ofCleanNumber "’-0,0:7" true (.text "NEG") = [.text "NEG", .text "NEG", .text "7"] ∧
      ofCleanNumber "’-0,0:7" false (.text "NEG") = [.text "-", .text "7"] ∧
      ofCleanNumber "’-0,0:7" true (.text signKey) = ofCleanNumber "-7" true (.text signKey) ∧
      minusPadded.magnitude = minusSeven.magnitude := by
  have hs : minusPadded.Shown "’-0,0:7" := shown_iff.mpr (by decide +kernel)
  have hkeys : ofCleanNumber "’-0,0:7" true (.text signKey) =
      ofCleanNumber "-7" true (.text signKey) := by decide +kernel
  obtain ⟨hsigned, hunsigned, -⟩ := ofCleanNumber_canonical hs (.text "NEG")
  have htold := (ofCleanNumber_canonical hs (.text "NEG")).2.2 shown_minusSeven hkeys
  exact ⟨hs, shown_minusSeven, hsigned, hunsigned, hkeys, htold.2⟩

/-- Whether a figure has no minus, but two zeros in front of the digits of one that has. -/
def Imitates (f g : Figure) : Prop :=
  f.negative = false ∧ g.negative = true ∧ f.digits = '0' :: '0' :: g.digits

/-- Figures that are entered as they stand have the same keys just if they are the same, or one
has two zeros in front where the other has a minus. -/
theorem ofNumber_eq_iff (hs : f.Shown s) (ht : g.Shown t) :
    ofNumber s true (.text signKey) = ofNumber t true (.text signKey) ↔
      (f.negative = g.negative ∧ f.digits = g.digits) ∨ f.Imitates g ∨ g.Imitates f := by
  rw [ofNumber_marked hs, ofNumber_marked ht, keys_injective.eq_iff]
  exact marked_eq_iff

/-- Seven with zeros in front. -/
def padded : Figure := ⟨false, ['0', '0', '7'], List.cons_ne_nil _ _, List.all_eq_true.mp rfl⟩

theorem shown_padded : padded.Shown "0’0:7" := shown_iff.mpr (by decide +kernel)

theorem ofNumber_eq_iff_padded :
    padded.Shown "0’0:7" ∧ minusSeven.Shown "-7" ∧ padded.Imitates minusSeven ∧
      ofNumber "0’0:7" true (.text signKey) = ofNumber "-7" true (.text signKey) := by
  have himitates : padded.Imitates minusSeven := ⟨rfl, rfl, rfl⟩
  exact ⟨shown_padded, shown_minusSeven, himitates,
    (ofNumber_eq_iff shown_padded shown_minusSeven).mpr (Or.inr (Or.inl himitates))⟩

/-- Figures that are entered as they stand may have the same keys and not the same sign. -/
theorem ofNumber_confuses_signs :
    padded.Shown "0’0:7" ∧ minusSeven.Shown "-7" ∧
      ofNumber "0’0:7" true (.text signKey) = ofNumber "-7" true (.text signKey) ∧
      padded.negative ≠ minusSeven.negative :=
  ⟨shown_padded, shown_minusSeven, by decide +kernel, by decide⟩

end Figure

end Keypad

end Cockpit
