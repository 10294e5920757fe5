import Cockpit.Keypad
import Mathlib.Data.List.Basic

/-!
# Entries with separators

Formatted values hold characters that no key enters.  `Keypad.Sprinkled` says that a text is
another one with separators put in anywhere.  What is entered of a text does not depend on where
they stood, so neither do the keys of a number (`Keypad.ofNumber_minus`,
`Keypad.ofNumber_plain`).

A number that is cleaned first differs in one point.  It gives no keys just for the empty text,
where a number that is not cleaned gives none for a text of separators alone.  So separators
decide over the keys of a cleaned number when nothing else stands in the text, and only then
(`Keypad.cleaning_enters_iff`).
-/

namespace Cockpit.Keypad

/-! ## Texts without separators -/

/-- Separators were put into a text, anywhere and in any number. -/
inductive Sprinkled : (plain formatted : List Char) → Prop where
  | nil : Sprinkled [] []
  | keep (c : Char) {cs ds : List Char} (h : Sprinkled cs ds) : Sprinkled (c :: cs) (c :: ds)
  | separator {c : Char} (hc : c ∈ separators) {cs ds : List Char} (h : Sprinkled cs ds) :
    Sprinkled cs (c :: ds)

/-- The characters that are entered, since they are no separators. -/
def entered (cs : List Char) : List Char := cs.filter (· ∉ separators)

variable {cs ds : List Char} {s t : String}

/-- Separators that were put in change nothing of what is entered. -/
theorem Sprinkled.entered_eq (h : Sprinkled cs ds) : entered ds = entered cs := by
  induction h with
  | nil => rfl
  | keep c _ ih =>
      rw [entered, entered, List.filter_cons, List.filter_cons]
      split
      · exact congrArg (c :: ·) ih
      · exact ih
  | separator hc _ ih => rwa [entered, List.filter_cons_of_neg (by simpa using hc)]

/-- Every text is what is entered of it with separators put in. -/
theorem sprinkled_entered (cs : List Char) : Sprinkled (entered cs) cs := by
  induction cs with
  | nil => exact .nil
  | cons c cs ih =>
      rw [entered, List.filter_cons]
      split
      · exact .keep c ih
      · rename_i hc
        exact .separator (by simpa using hc) ih

theorem entered_eq_self (h : ∀ c ∈ cs, c ∉ separators) : entered cs = cs :=
  List.filter_eq_self.mpr fun c hc => decide_eq_true (h c hc)

/-- What separators were put into is what is entered, if it has none itself. -/
theorem sprinkled_iff (h : ∀ c ∈ cs, c ∉ separators) : Sprinkled cs ds ↔ entered ds = cs := by
  refine ⟨fun hs => hs.entered_eq.trans (entered_eq_self h), ?_⟩
  rintro rfl
  exact sprinkled_entered ds

theorem entered_eq_nil_iff : entered cs = [] ↔ ∀ c ∈ cs, c ∈ separators := by
  simp [entered]

theorem not_mem_separators_of_mem_entered {c : Char} (h : c ∈ entered cs) : c ∉ separators := by
  simpa using (List.mem_filter.mp h).2

theorem withoutSeparators_eq (s : String) : withoutSeparators s = String.ofList (entered s.toList) :=
  rfl

/-! ## Keys -/

/-- One key for each character. -/
def keys (cs : List Char) : List Value := cs.map fun c => .text c.toString

theorem map_ofText (s : String) : (ofText s).map Value.text = keys s.toList := by
  rw [ofText, keys, List.map_map]
  rfl

theorem keys_eq_nil_iff : keys cs = [] ↔ cs = [] := List.map_eq_nil_iff

theorem keys_injective : Function.Injective keys := by
  refine List.map_injective_iff.mpr fun c d h => ?_
  have hs := congrArg String.toList (Value.text.inj h)
  rw [Char.toString_eq_singleton, Char.toString_eq_singleton, String.toList_singleton,
    String.toList_singleton] at hs
  exact (List.cons.inj hs).1

/-- The keys of a minus sign: the sign key twice if the keypad takes signs, and a key like any
other if it does not. -/
def minusKeys (signed : Bool) (sign : Value) : List Value :=
  if signed then [sign, sign] else [.text "-"]

variable {signed : Bool} {sign : Value}

/-- A number with a minus in front. -/
theorem ofNumber_minus (h : entered s.toList = '-' :: cs) :
    ofNumber s signed sign = minusKeys signed sign ++ keys cs := by
  rw [ofNumber, withoutSeparators_eq, h]
  simp only [String.toList_ofList, map_ofText, minusKeys]
  cases signed <;> rfl

/-- A number without a minus in front. -/
theorem ofNumber_plain (h : (entered s.toList).head? ≠ some '-') :
    ofNumber s signed sign = keys (entered s.toList) := by
  rw [ofNumber, withoutSeparators_eq]
  simp only [String.toList_ofList, map_ofText]
  split
  · rename_i heq
    rw [heq] at h
    exact absurd rfl h
  · rfl

/-- A number gives no keys just if it has no characters but separators. -/
theorem ofNumber_eq_nil_iff : ofNumber s signed sign = [] ↔ entered s.toList = [] := by
  by_cases h : (entered s.toList).head? = some '-'
  · obtain ⟨cs, hcs⟩ : ∃ cs, entered s.toList = '-' :: cs := List.head?_eq_some_iff.mp h
    rw [ofNumber_minus hcs, hcs, minusKeys]
    cases signed <;> simp
  · rw [ofNumber_plain h, keys_eq_nil_iff]

/-! ## Cleaned numbers -/

theorem withoutLeadingZeros_ne_empty (s : String) : withoutLeadingZeros s ≠ "" := by
  rw [withoutLeadingZeros]
  split
  · decide
  · rename_i cs hne
    simpa [String.ofList_eq_empty_iff] using hne

/-- Taking leading zeros away leaves no other characters than there were, or a zero. -/
theorem mem_withoutLeadingZeros {c : Char} (h : c ∈ (withoutLeadingZeros s).toList) :
    c ∈ s.toList ∨ c = '0' := by
  rw [withoutLeadingZeros] at h
  split at h
  · exact Or.inr (by simpa using h)
  · rw [String.toList_ofList] at h
    exact Or.inl ((List.dropWhile_suffix _).subset h)

/-- What stays of a text without separators has none when its leading zeros are gone. -/
theorem entered_withoutLeadingZeros (h : ∀ c ∈ s.toList, c ∉ separators) :
    entered (withoutLeadingZeros s).toList = (withoutLeadingZeros s).toList := by
  refine entered_eq_self fun c hc => ?_
  rcases mem_withoutLeadingZeros hc with hc | rfl
  · exact h c hc
  · decide

/-- A cleaned number with a minus in front. -/
theorem ofCleanNumber_minus (h : entered s.toList = '-' :: cs) :
    ofCleanNumber s signed sign =
      minusKeys signed sign ++ keys (withoutLeadingZeros (String.ofList cs)).toList := by
  have hne : s ≠ "" := by
    rintro rfl
    cases h
  have hcs : ∀ c ∈ (String.ofList cs).toList, c ∉ separators := by
    intro c hc
    rw [String.toList_ofList] at hc
    exact not_mem_separators_of_mem_entered (h ▸ List.mem_cons_of_mem '-' hc)
  rw [ofCleanNumber, if_neg hne, withoutSeparators_eq, h]
  simp only [String.toList_ofList]
  refine ofNumber_minus ?_
  rw [String.toList_append]
  exact congrArg ('-' :: ·) (entered_withoutLeadingZeros hcs)

/-- A cleaned number without a minus in front. -/
theorem ofCleanNumber_plain (hs : s ≠ "") (h : (entered s.toList).head? ≠ some '-') :
    ofCleanNumber s signed sign =
      ofNumber (withoutLeadingZeros (String.ofList (entered s.toList))) signed sign := by
  rw [ofCleanNumber, if_neg hs, withoutSeparators_eq]
  simp only [String.toList_ofList]
  split
  · rename_i heq
    rw [heq] at h
    exact absurd rfl h
  · rfl

/-- A cleaned number gives no keys just if the text is empty. -/
theorem ofCleanNumber_eq_nil_iff : ofCleanNumber s signed sign = [] ↔ s = "" := by
  refine ⟨fun hnil => ?_, fun hs => if_pos hs⟩
  by_contra hs
  by_cases h : (entered s.toList).head? = some '-'
  · obtain ⟨cs, hcs⟩ : ∃ cs, entered s.toList = '-' :: cs := List.head?_eq_some_iff.mp h
    rw [ofCleanNumber_minus hcs, List.append_eq_nil_iff, minusKeys] at hnil
    cases signed <;> exact absurd hnil.1 (by simp)
  · rw [ofCleanNumber_plain hs h, ofNumber_eq_nil_iff, entered_withoutLeadingZeros] at hnil
    · exact withoutLeadingZeros_ne_empty _ (String.toList_eq_nil_iff.mp hnil)
    · intro c hc
      rw [String.toList_ofList] at hc
      exact not_mem_separators_of_mem_entered hc

/-- A text of separators alone is cleaned to zero. -/
theorem ofCleanNumber_of_separators (hs : s ≠ "") (h : ∀ c ∈ s.toList, c ∈ separators) :
    ofCleanNumber s signed sign = [.text "0"] := by
  have hnone : entered s.toList = [] := entered_eq_nil_iff.mpr h
  rw [ofCleanNumber_plain hs (by simp [hnone]), hnone]
  cases signed <;> rfl

/-! ## Dependence on separators -/

section

variable (h : entered s.toList = entered t.toList)
include h

theorem ofNumber_congr : ofNumber s signed sign = ofNumber t signed sign := by
  rw [ofNumber, ofNumber, withoutSeparators_eq, withoutSeparators_eq, h]

/-- Texts that agree but for separators are cleaned alike, unless just one of them is empty. -/
theorem ofCleanNumber_eq_iff :
    ofCleanNumber s signed sign = ofCleanNumber t signed sign ↔ (s = "" ↔ t = "") := by
  constructor
  · intro he
    rw [← @ofCleanNumber_eq_nil_iff s signed sign, he, ofCleanNumber_eq_nil_iff]
  · intro hempty
    by_cases hs : s = ""
    · rw [hs, hempty.mp hs]
    · rw [ofCleanNumber, ofCleanNumber, if_neg hs, if_neg (hs ∘ hempty.mpr),
        withoutSeparators_eq, withoutSeparators_eq, h]

end

/-- A number gives no keys just for separators alone, and separators never change its keys.  A
cleaned number gives no keys just for the empty text, and a zero for other separators alone.  So
separators change its keys just if there is nothing but them in one text and nothing at all in
the other. -/
theorem cleaning_enters_iff (s t : String) (signed : Bool) (sign : Value) :
    (ofNumber s signed sign = [] ↔ ∀ c ∈ s.toList, c ∈ separators) ∧
    (ofCleanNumber s signed sign = [] ↔ s = "") ∧
    (s ≠ "" → (∀ c ∈ s.toList, c ∈ separators) → ofCleanNumber s signed sign = [.text "0"]) ∧
    ∀ cs, Sprinkled cs s.toList → Sprinkled cs t.toList →
      ofNumber s signed sign = ofNumber t signed sign ∧
      (ofCleanNumber s signed sign = ofCleanNumber t signed sign ↔ (s = "" ↔ t = "")) := by
  refine ⟨ofNumber_eq_nil_iff.trans entered_eq_nil_iff, ofCleanNumber_eq_nil_iff,
    ofCleanNumber_of_separators, fun cs hs ht => ?_⟩
  have h : entered s.toList = entered t.toList := hs.entered_eq.trans ht.entered_eq.symm
  exact ⟨ofNumber_congr h, ofCleanNumber_eq_iff h⟩

theorem cleaning_enters_iff_formatted :
    Sprinkled "-0125".toList "’-0,1:25".toList ∧ Sprinkled "-0125".toList "-0125".toList ∧
      ofCleanNumber "’-0,1:25" true (.text signKey) = ofCleanNumber "-0125" true (.text signKey) ∧
      (":," ≠ "" ∧ ∀ c ∈ ":,".toList, c ∈ separators) ∧
      ofCleanNumber ":," true (.text signKey) = [.text "0"] := by
  have hs : Sprinkled "-0125".toList "’-0,1:25".toList := by
    have h : entered "’-0,1:25".toList = "-0125".toList := by decide +kernel
    exact h ▸ sprinkled_entered _
  have ht : Sprinkled "-0125".toList "-0125".toList := by
    have h : entered "-0125".toList = "-0125".toList := by decide +kernel
    exact h ▸ sprinkled_entered "-0125".toList
  have hnone : entered ":,".toList = [] := by decide +kernel
  have hseparators : ":," ≠ "" ∧ ∀ c ∈ ":,".toList, c ∈ separators :=
    ⟨by decide, entered_eq_nil_iff.mp hnone⟩
  refine ⟨hs, ht, ?_, hseparators, ?_⟩
  · have h := (cleaning_enters_iff "’-0,1:25" "-0125" true (.text signKey)).2.2.2 _ hs ht
    exact h.2.mpr (by decide)
  · have h := (cleaning_enters_iff ":," "" true (.text signKey)).2.2.1
    exact h hseparators.1 hseparators.2

/-- A text of separators alone enters nothing, but it enters a zero when it is cleaned. -/
theorem cleaning_invents_zero :
    ¬ (ofCleanNumber "," false (.text signKey) = [] ↔ ofNumber "," false (.text signKey) = []) ∧
      Sprinkled "".toList ",".toList ∧
      ofCleanNumber "," false (.text signKey) ≠ ofCleanNumber "" false (.text signKey) := by
  have hclean : ofCleanNumber "," false (.text signKey) = [.text "0"] := by decide +kernel
  have hplain : ofNumber "," false (.text signKey) = [] := by decide +kernel
  have hempty : ofCleanNumber "" false (.text signKey) = [] := by decide +kernel
  rw [hclean, hplain, hempty]
  exact ⟨by decide, .separator (by decide) .nil, by decide⟩

end Cockpit.Keypad
