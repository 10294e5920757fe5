import Cockpit.Json.Reader
import Cockpit.Json.Writer

/-!
# Strings in JSON

A written string is read back, in both ways of writing characters beyond ASCII.
The reader takes one escape or one plain character for each character of the
string (`readChars_writeChar`).
-/

namespace Cockpit.Json

open Text (hexDigits)

/-! ## Hexadecimal digits -/

theorem hexDigits_succ {width : Nat} (hw : 0 < width) (n : Nat) :
    hexDigits (width + 1) n = hexDigits width (n / 16) ++ [Nat.digitChar (n % 16)] := by
  simp only [hexDigits]
  by_cases hn : n < 16
  · obtain ⟨v, rfl⟩ := Nat.exists_eq_succ_of_ne_zero (Nat.ne_of_gt hw)
    rw [Nat.toDigits_of_lt_base hn, Nat.div_eq_of_lt hn, Nat.toDigits_zero, Nat.mod_eq_of_lt hn]
    simp only [List.length_singleton, Nat.add_sub_cancel, Nat.succ_eq_add_one]
    rw [← List.replicate_succ']
  · rw [Nat.toDigits_of_base_le (by decide) (Nat.le_of_not_lt hn)]
    simp only [List.length_append, List.length_singleton, Nat.add_sub_add_right, List.append_assoc]

theorem hexDigits_one {n : Nat} (h : n < 16) : hexDigits 1 n = [Nat.digitChar n] := by
  rw [hexDigits, Nat.toDigits_of_lt_base h]
  rfl

theorem hexDigits_four {n : Nat} (h : n < 0x10000) :
    hexDigits 4 n = [Nat.digitChar (n / 16 / 16 / 16), Nat.digitChar (n / 16 / 16 % 16),
      Nat.digitChar (n / 16 % 16), Nat.digitChar (n % 16)] := by
  rw [hexDigits_succ (by decide), hexDigits_succ (by decide), hexDigits_succ (by decide),
    hexDigits_one (by omega)]
  rfl

theorem hexValue?_digitChar : ∀ d < 16, hexValue? (Nat.digitChar d) = some d := by decide

theorem fourHex?_hexDigits {n : Nat} (h : n < 0x10000) (cs : List Char) :
    fourHex? (hexDigits 4 n ++ cs) = some n := by
  rw [hexDigits_four h]
  simp only [List.cons_append, List.nil_append, fourHex?]
  rw [hexValue?_digitChar _ (by omega), hexValue?_digitChar _ (by omega),
    hexValue?_digitChar _ (by omega), hexValue?_digitChar _ (by omega)]
  refine congrArg some ?_
  omega

theorem length_hexDigits_four {n : Nat} (h : n < 0x10000) : (hexDigits 4 n).length = 4 := by
  rw [hexDigits_four h]
  rfl

/-! ## Escapes by code -/

/-- A character is no surrogate. -/
theorem not_surrogate (c : Char) :
    isHighSurrogate c.toNat = false ∧ isLowSurrogate c.toNat = false := by
  have hv : c.toNat < 0xD800 ∨ 0xDFFF < c.toNat ∧ c.toNat < 0x110000 := c.valid
  simp only [isHighSurrogate, isLowSurrogate, Bool.and_eq_false_iff, decide_eq_false_iff_not]
  omega

/-- An escape by code of a character that is one unit. -/
theorem readCode_single {c : Char} (h : c.toNat < 0x10000) {cs : List Char} (hcs : cs ≠ [])
    (p : Nat) : readCode ⟨'u' :: hexDigits 4 c.toNat ++ cs, p⟩ = .ok (c, 5) := by
  have hl : ¬ (hexDigits 4 c.toNat ++ cs).length < 5 := by
    have := List.length_pos_iff.mpr hcs
    rw [List.length_append, length_hexDigits_four h]
    omega
  obtain ⟨hh, hlow⟩ := not_surrogate c
  simp only [readCode, List.cons_append, List.drop_succ_cons, List.drop_zero, if_neg hl,
    fourHex?_hexDigits h, hh, Bool.false_and, Bool.false_eq_true, if_false, charOfCode, hlow,
    Bool.or_false, Char.ofNat_toNat]

theorem lt_of_isHighSurrogate {n : Nat} (h : isHighSurrogate n = true) : n < 0x10000 := by
  simp only [isHighSurrogate, Bool.and_eq_true, decide_eq_true_eq] at h
  omega

theorem lt_of_isLowSurrogate {n : Nat} (h : isLowSurrogate n = true) : n < 0x10000 := by
  simp only [isLowSurrogate, Bool.and_eq_true, decide_eq_true_eq] at h
  omega

/-- Two escapes by code, of a high and a low surrogate. -/
theorem readCode_surrogates {hi lo : Nat} (hhi : isHighSurrogate hi = true)
    (hlo : isLowSurrogate lo = true) {cs : List Char} (hcs : cs ≠ []) (p : Nat) :
    readCode ⟨'u' :: hexDigits 4 hi ++ (codeEscape lo ++ cs), p⟩ =
      .ok (Char.ofNat (0x10000 + (hi - 0xD800) * 0x400 + (lo - 0xDC00)), 11) := by
  have hhi4 := lt_of_isHighSurrogate hhi
  have hlo4 := lt_of_isLowSurrogate hlo
  have hpos := List.length_pos_iff.mpr hcs
  have hl : ¬ (hexDigits 4 hi ++ (codeEscape lo ++ cs)).length < 5 := by
    simp only [List.length_append, codeEscape, List.length_cons, length_hexDigits_four hhi4]
    omega
  have hmore : (hexDigits 4 hi ++ (codeEscape lo ++ cs)).drop 4 = codeEscape lo ++ cs := by
    have hd : (hexDigits 4 hi ++ (codeEscape lo ++ cs)).drop (hexDigits 4 hi).length =
        codeEscape lo ++ cs := List.drop_left
    rwa [length_hexDigits_four hhi4] at hd
  have hsix : 6 < (codeEscape lo ++ cs).length := by
    simp only [List.length_append, codeEscape, List.length_cons, length_hexDigits_four hlo4]
    omega
  have htwo : ((codeEscape lo ++ cs).take 2 == ['\\', 'u']) = true := rfl
  have hdrop : (codeEscape lo ++ cs).drop 2 = hexDigits 4 lo ++ cs := rfl
  simp only [readCode, List.cons_append, List.drop_succ_cons, List.drop_zero, if_neg hl,
    fourHex?_hexDigits hhi4, hmore, hhi, hsix, htwo, hdrop, fourHex?_hexDigits hlo4, hlo,
    decide_true, Bool.and_self, if_true]

/-- The two units of a character beyond the first plane. -/
theorem exists_surrogates {c : Char} (h : 0x10000 ≤ c.toNat) :
    ∃ hi lo, hi = 0xD800 + (c.toNat - 0x10000) / 0x400 ∧ lo = 0xDC00 + (c.toNat - 0x10000) % 0x400 ∧
      isHighSurrogate hi = true ∧ isLowSurrogate lo = true ∧
      0x10000 + (hi - 0xD800) * 0x400 + (lo - 0xDC00) = c.toNat := by
  have hv : c.toNat < 0xD800 ∨ 0xDFFF < c.toNat ∧ c.toNat < 0x110000 := c.valid
  refine ⟨_, _, rfl, rfl, ?_, ?_, by omega⟩
  · simp only [isHighSurrogate, Bool.and_eq_true, decide_eq_true_eq]
    omega
  · simp only [isLowSurrogate, Bool.and_eq_true, decide_eq_true_eq]
    omega

/-! ## Characters -/

variable {opening fuel : Nat} {read cs : List Char} {p : Nat}

theorem readChars_quote :
    readChars opening (fuel + 1) read ⟨'"' :: cs, p⟩ =
      .ok (String.ofList read.reverse, ⟨cs, p + 1⟩) := rfl

/-- A character that stands for itself. -/
theorem readChars_plain {c : Char} (hq : c ≠ '"') (hb : c ≠ '\\') (hc : 0x20 ≤ c.toNat) :
    readChars opening (fuel + 1) read ⟨c :: cs, p⟩ =
      readChars opening fuel (c :: read) ⟨cs, p + 1⟩ := by
  rw [readChars]
  split
  · rename_i heq
    cases heq
  · rename_i heq
    exact absurd (List.cons.inj heq).1 hq
  · rename_i heq
    exact absurd (List.cons.inj heq).1 hb
  · rename_i heq
    cases heq
    rw [if_neg (Nat.not_lt.mpr hc)]
    rfl

/-- An escape of two characters. -/
theorem readChars_short {c e : Char} (he : shortEscape? e = some c) :
    readChars opening (fuel + 1) read ⟨'\\' :: e :: cs, p⟩ =
      readChars opening fuel (c :: read) ⟨cs, p + 2⟩ := by
  have hu : e ≠ 'u' := by
    rintro rfl
    cases he
  simp only [readChars, he]
  rfl

/-- An escape by code. -/
theorem readChars_code {c : Char} {n : Nat} {us : List Char}
    (h : readCode ⟨'u' :: us ++ cs, p + 1⟩ = .ok (c, n)) (hn : n = us.length + 1) :
    readChars opening (fuel + 1) read ⟨'\\' :: 'u' :: us ++ cs, p⟩ =
      readChars opening fuel (c :: read) ⟨cs, p + (n + 1)⟩ := by
  have hr : readChars opening (fuel + 1) read ⟨'\\' :: 'u' :: us ++ cs, p⟩ =
      (readCode ⟨'u' :: us ++ cs, p + 1⟩).bind fun x =>
        readChars opening fuel (x.1 :: read) (Cursor.advance ⟨'\\' :: 'u' :: us ++ cs, p⟩ (x.2 + 1)) :=
    rfl
  have hd : ('\\' :: 'u' :: us ++ cs).drop (n + 1) = cs := by
    have hl : n + 1 = ('\\' :: 'u' :: us).length := by rw [hn, List.length_cons, List.length_cons]
    rw [hl, List.drop_left]
  rw [hr, h]
  simp only [Except.bind, Cursor.advance, hd]

/-- How a character is written: by a short escape, by one code or two, or as itself. -/
theorem writeChar_cases (escapeAll : Bool) (c : Char) :
    (∃ e, writeChar escapeAll c = ['\\', e] ∧ shortEscape? e = some c) ∨
    (c.toNat < 0x10000 ∧ writeChar escapeAll c = codeEscape c.toNat) ∨
    (∃ hi lo, writeChar escapeAll c = codeEscape hi ++ codeEscape lo ∧
      isHighSurrogate hi = true ∧ isLowSurrogate lo = true ∧
      0x10000 + (hi - 0xD800) * 0x400 + (lo - 0xDC00) = c.toNat) ∨
    (c ≠ '"' ∧ c ≠ '\\' ∧ 0x20 ≤ c.toNat ∧ (escapeAll = true → c.toNat < 0x7F) ∧
      writeChar escapeAll c = [c]) := by
  by_cases hs : c ∈ ['"', '\\', '\n', '\r', '\t', '\x0c', '\x08']
  · simp only [List.mem_cons, List.not_mem_nil, or_false] at hs
    rcases hs with rfl | rfl | rfl | rfl | rfl | rfl | rfl
    · exact Or.inl ⟨'"', rfl, rfl⟩
    · exact Or.inl ⟨'\\', rfl, rfl⟩
    · exact Or.inl ⟨'n', rfl, rfl⟩
    · exact Or.inl ⟨'r', rfl, rfl⟩
    · exact Or.inl ⟨'t', rfl, rfl⟩
    · exact Or.inl ⟨'f', rfl, rfl⟩
    · exact Or.inl ⟨'b', rfl, rfl⟩
  · simp only [List.mem_cons, List.not_mem_nil, or_false, not_or] at hs
    obtain ⟨h1, h2, h3, h4, h5, h6, h7⟩ := hs
    refine Or.inr ?_
    simp only [writeChar, if_neg h1, if_neg h2, if_neg h3, if_neg h4, if_neg h5, if_neg h6,
      if_neg h7]
    split
    · exact Or.inl ⟨by omega, rfl⟩
    · rename_i hlow
      split
      · rw [wideEscape]
        split
        · exact Or.inl ⟨‹_›, rfl⟩
        · rename_i hn
          obtain ⟨hi, lo, hhi, hlo, h⟩ := exists_surrogates (Nat.le_of_not_lt hn)
          refine Or.inr (Or.inl ⟨hi, lo, ?_, h⟩)
          rw [hhi, hlo]
      · rename_i hraw
        refine Or.inr (Or.inr ⟨h1, h2, Nat.le_of_not_lt hlow, fun he => ?_, rfl⟩)
        simpa [he] using hraw

theorem writeChar_ne_nil (escapeAll : Bool) (c : Char) : writeChar escapeAll c ≠ [] := by
  rcases writeChar_cases escapeAll c with ⟨e, h, -⟩ | ⟨-, h⟩ | ⟨hi, lo, h, -⟩ | ⟨-, -, -, -, h⟩
  all_goals
    rw [h]
    exact List.cons_ne_nil _ _

/-- The reader takes what was written for one character. -/
theorem readChars_writeChar (opening fuel : Nat) (read : List Char) (p : Nat) (escapeAll : Bool)
    (c : Char) (hcs : cs ≠ []) :
    ∃ q, readChars opening (fuel + 1) read ⟨writeChar escapeAll c ++ cs, p⟩ =
      readChars opening fuel (c :: read) ⟨cs, q⟩ := by
  rcases writeChar_cases escapeAll c with ⟨e, h, he⟩ | ⟨hn, h⟩ | ⟨hi, lo, h, hhi, hlo, hc⟩ |
    ⟨hq, hb, hc, -, h⟩
  · rw [h]
    exact ⟨_, readChars_short he⟩
  · rw [h]
    exact ⟨_, readChars_code (readCode_single hn hcs _) (by rw [length_hexDigits_four hn])⟩
  · rw [h]
    have hr := readCode_surrogates hhi hlo hcs (p + 1)
    rw [hc, Char.ofNat_toNat, ← List.append_assoc] at hr
    have hl : 11 = (hexDigits 4 hi ++ codeEscape lo).length + 1 := by
      rw [List.length_append, codeEscape, List.length_cons, List.length_cons,
        length_hexDigits_four (lt_of_isHighSurrogate hhi),
        length_hexDigits_four (lt_of_isLowSurrogate hlo)]
    exact ⟨_, readChars_code hr hl⟩
  · rw [h]
    exact ⟨_, readChars_plain hq hb hc⟩

/-! ## Strings -/

/-- The reader takes what was written for the characters of a string. -/
theorem readChars_flatMap (opening fuel : Nat) (read : List Char) (p : Nat) (escapeAll : Bool)
    {s : List Char} (hf : s.length < fuel) (rest : List Char) :
    ∃ q, readChars opening fuel read ⟨s.flatMap (writeChar escapeAll) ++ '"' :: rest, p⟩ =
      .ok (String.ofList (read.reverse ++ s), ⟨rest, q⟩) := by
  induction s generalizing fuel read p with
  | nil =>
      obtain ⟨f, rfl⟩ := Nat.exists_eq_succ_of_ne_zero (Nat.ne_of_gt hf)
      rw [List.append_nil]
      exact ⟨_, readChars_quote⟩
  | cons c s ih =>
      obtain ⟨f, rfl⟩ := Nat.exists_eq_succ_of_ne_zero (Nat.ne_of_gt (Nat.zero_lt_of_lt hf))
      rw [List.flatMap_cons, List.append_assoc]
      have hne : s.flatMap (writeChar escapeAll) ++ '"' :: rest ≠ [] := by simp
      obtain ⟨q, hq⟩ := readChars_writeChar opening f read p escapeAll c hne
      obtain ⟨q', hq'⟩ := ih f (c :: read) q (Nat.lt_of_succ_lt_succ hf)
      refine ⟨q', ?_⟩
      rw [Nat.succ_eq_add_one, hq, hq', List.reverse_cons, List.append_assoc]
      rfl

theorem length_le_flatMap (escapeAll : Bool) (s : List Char) :
    s.length ≤ (s.flatMap (writeChar escapeAll)).length := by
  induction s with
  | nil => exact Nat.le_refl _
  | cons c s ih =>
      have := List.length_pos_iff.mpr (writeChar_ne_nil escapeAll c)
      rw [List.flatMap_cons, List.length_append, List.length_cons]
      omega

/-- A written string is read back, whatever follows it. -/
theorem readString_writeString (escapeAll : Bool) (s : String) (rest : List Char) (p : Nat) :
    ∃ q, readString ⟨writeString escapeAll s ++ rest, p⟩ = .ok (s, ⟨rest, q⟩) := by
  have hl := length_le_flatMap escapeAll s.toList
  have hf : s.toList.length < (writeString escapeAll s ++ rest).length + 1 := by
    simp only [writeString, List.length_append, List.length_cons]
    omega
  obtain ⟨q, hq⟩ := readChars_flatMap p _ [] (p + 1) escapeAll hf rest
  refine ⟨q, ?_⟩
  have ht : writeString escapeAll s ++ rest =
      '"' :: (s.toList.flatMap (writeChar escapeAll) ++ '"' :: rest) := by
    simp [writeString]
  rw [List.reverse_nil, List.nil_append, String.ofList_toList] at hq
  rw [readString]
  dsimp only
  rw [ht] at hq ⊢
  exact hq

end Cockpit.Json
