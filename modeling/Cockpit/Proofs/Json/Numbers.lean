import Cockpit.Json.Writer
import Cockpit.Proofs.Json.Numerals

/-!
# Numbers as numerals

The text of an integer is a numeral, and so is the text of a finite binary64
number.  A numeral is read back whatever follows it, so both kinds of numbers are
read back, too.

For binary64 numbers this rests on `Double.Survives`, that the text of a number
on its own denotes the number.
-/

namespace Cockpit

open Number (decimalDigits digitCount shortest onGrid? roundsTo reachDown ofDigits)
open Json (Numeral EndsNumber)

/-! ## Digits -/

/-- Digits with no zero in front. -/
structure IsLeading (ds : List Char) : Prop where
  ne_nil : ds ≠ []
  digits : ∀ c ∈ ds, c.isDigit = true
  head : ds.head? ≠ some '0'

theorem isDigit_decimalDigits (n : Nat) : ∀ c ∈ decimalDigits n, c.isDigit = true :=
  fun _ hc => Nat.isDigit_of_mem_toDigits (by decide) (by decide) hc

theorem isLeading_decimalDigits {n : Nat} (h : 0 < n) : IsLeading (decimalDigits n) where
  ne_nil := Nat.toDigits_ne_nil
  digits := isDigit_decimalDigits n
  head := by
    induction n using Nat.strongRecOn with
    | ind n ih =>
        rw [decimalDigits, Nat.toDigits_eq_if (by decide)]
        split
        · rename_i hn
          intro he
          have hd : Nat.digitChar n = '0' := Option.some.inj he
          have ht := congrArg (fun c => c.toNat - 48) hd
          rw [Nat.toNat_digitChar_sub_48_of_lt_ten hn] at ht
          exact absurd ht (Nat.ne_of_gt h)
        · rename_i hn
          rw [List.head?_append]
          have hi := ih (n / 10) (by omega) (by omega)
          rw [decimalDigits] at hi
          cases hd : Nat.toDigits 10 (n / 10) with
          | nil => exact absurd hd Nat.toDigits_ne_nil
          | cons c cs =>
              rw [hd] at hi
              exact hi

theorem isDigit_append {as bs : List Char} (ha : ∀ c ∈ as, c.isDigit = true)
    (hb : ∀ c ∈ bs, c.isDigit = true) : ∀ c ∈ as ++ bs, c.isDigit = true :=
  fun c hc => (List.mem_append.mp hc).elim (ha c) (hb c)

theorem isDigit_zeros (n : Nat) : ∀ c ∈ List.replicate n '0', c.isDigit = true := by
  intro c hc
  cases List.eq_of_mem_replicate hc
  rfl

theorem IsLeading.append {as bs : List Char} (ha : IsLeading as)
    (hb : ∀ c ∈ bs, c.isDigit = true) : IsLeading (as ++ bs) where
  ne_nil := List.append_ne_nil_of_left_ne_nil ha.ne_nil bs
  digits := isDigit_append ha.digits hb
  head := by
    obtain ⟨d, ds, rfl⟩ := List.exists_cons_of_ne_nil ha.ne_nil
    exact ha.head

theorem IsLeading.take {ds : List Char} (h : IsLeading ds) {n : Nat} (hn : 0 < n) :
    IsLeading (ds.take n) where
  ne_nil := by simp [h.ne_nil, Nat.ne_of_gt hn]
  digits c hc := h.digits c (List.mem_of_mem_take hc)
  head := by
    obtain ⟨d, ds, rfl⟩ := List.exists_cons_of_ne_nil h.ne_nil
    obtain ⟨m, rfl⟩ := Nat.exists_eq_succ_of_ne_zero (Nat.ne_of_gt hn)
    exact h.head

theorem ofDigits_decimalDigits (n : Nat) : ofDigits (decimalDigits n) = n :=
  Nat.ofDigitChars_ten_toDigits

/-- Zeros at the end do not lead. -/
theorem IsLeading.trim {ds : List Char} (h : IsLeading ds) :
    IsLeading (ds.reverse.dropWhile (· = '0')).reverse := by
  cases ds with
  | nil => exact absurd rfl h.ne_nil
  | cons d ds =>
      have hd : d ≠ '0' := fun he => h.head (by rw [he]; rfl)
      obtain ⟨es, hes, hsub⟩ : ∃ es, (d :: ds).reverse.dropWhile (· = '0') = es ++ [d] ∧
          ∀ c ∈ es, c ∈ ds := by
        rw [List.reverse_cons, List.dropWhile_append]
        split
        · refine ⟨[], ?_, nofun⟩
          exact List.dropWhile_cons_of_neg (by simpa using hd)
        · refine ⟨_, rfl, fun c hc => ?_⟩
          exact List.mem_reverse.mp ((List.dropWhile_suffix _).subset hc)
      rw [hes, List.reverse_append]
      refine ⟨nofun, fun c hc => ?_, fun he => hd (Option.some.inj he)⟩
      rcases List.mem_cons.mp hc with rfl | hc
      · exact h.digits c List.mem_cons_self
      · exact h.digits c (List.mem_cons_of_mem d (hsub c (List.mem_reverse.mp hc)))

/-! ## Integers -/

/-- The numeral of an integer. -/
def Json.Numeral.ofInt (n : Int) : Numeral where
  negative := n < 0
  whole := decimalDigits n.natAbs
  places := []
  exponent := none
  whole_ne := Nat.toDigits_ne_nil
  whole_digits := isDigit_decimalDigits _
  whole_lead := by
    rcases Nat.eq_zero_or_pos n.natAbs with h | h
    · rw [h]
      exact Or.inl rfl
    · exact Or.inr (isLeading_decimalDigits h).head
  places_digits := nofun
  exponent_ne := nofun
  exponent_digits := nofun

theorem Json.Numeral.text_ofInt (n : Int) : (Numeral.ofInt n).text = (toString n).toList := by
  have hb : (Numeral.ofInt n).body = decimalDigits n.natAbs := by
    simp [body, ofInt, fraction, power]
  rw [text, hb]
  cases n with
  | ofNat m => exact Nat.toList_repr.symm
  | negSucc m =>
      have hs : (ofInt (Int.negSucc m)).sign = ['-'] := if_pos (decide_eq_true (Int.negSucc_lt_zero m))
      have ht : toString (Int.negSucc m) = "-" ++ (m + 1).repr := rfl
      rw [hs, ht, String.toList_append, Nat.toList_repr]
      rfl

/-- An integer is read back, unless it is too long. -/
theorem Json.readNumber_toString {n : Int} (hn : digitCount n.natAbs ≤ Number.digitLimit)
    {rest : List Char} (h : EndsNumber rest) (p : Nat) :
    readNumber ⟨(toString n).toList ++ rest, p⟩ =
      .ok (.int n, ⟨rest, p + (toString n).toList.length⟩) := by
  rw [← Numeral.text_ofInt, (Numeral.ofInt n).readNumber_text h p]
  have hw : (Numeral.ofInt n).isWhole = true := rfl
  have hl : ¬ Number.digitLimit < (Numeral.ofInt n).whole.length := Nat.not_lt.mpr hn
  have hv : (if (Numeral.ofInt n).negative then -(ofDigits (Numeral.ofInt n).whole : Int)
      else ofDigits (Numeral.ofInt n).whole) = n := by
    change (if decide (n < 0) = true then -(ofDigits (decimalDigits n.natAbs) : Int)
      else ofDigits (decimalDigits n.natAbs)) = n
    rw [ofDigits_decimalDigits]
    split
    · rename_i hd
      have := of_decide_eq_true hd
      omega
    · rename_i hd
      have : ¬ n < 0 := fun hlt => hd (decide_eq_true hlt)
      omega
  rw [if_pos hw, if_neg hl, hv]

/-! ## Shortest digits -/

namespace Number

theorem reachDown_lt {units : Nat} (h : 0 < units) : reachDown units < 4 * units := by
  have hs : Double.spacing units ≤ units := by
    calc Double.spacing units ≤ 2 ^ units.log2 := Nat.pow_le_pow_right (by decide) (Nat.sub_le _ _)
      _ ≤ units := Nat.log2_self_le (Nat.ne_of_gt h)
  rw [reachDown]
  split <;> omega

/-- Nothing but a positive magnitude rounds to a positive number. -/
theorem roundsTo_zero {units den : Nat} (h : 0 < units) (hd : 0 < den) :
    roundsTo units 0 den = false := by
  have hlow : 0 < (4 * units - reachDown units) * den :=
    Nat.mul_pos (Nat.sub_pos_of_lt (reachDown_lt h)) hd
  rw [roundsTo]
  split
  · simp [Nat.not_le.mpr hlow]
  · simp

theorem pos_of_roundsTo {units c down up : Nat} (h : 0 < units) (hup : 0 < up)
    (hr : roundsTo units (4 * c * down) up = true) : 0 < c := by
  rcases Nat.eq_zero_or_pos c with rfl | hc
  · rw [Nat.mul_zero, Nat.zero_mul, roundsTo_zero h hup] at hr
    cases hr
  · exact hc

theorem onGrid?_pos {units n c : Nat} {e : Int} (h : 0 < units)
    (hg : onGrid? units n = some (c, e)) : 0 < c := by
  have hup : 0 < 10 ^ (-(pointOf units - n)).toNat := Nat.pow_pos (by decide)
  unfold onGrid? at hg
  dsimp only at hg
  split at hg
  · rename_i hf
    obtain ⟨rfl, -⟩ := Prod.mk.inj (Option.some.inj hg)
    exact pos_of_roundsTo h hup hf
  · split at hg
    · rename_i hf
      obtain ⟨rfl, -⟩ := Prod.mk.inj (Option.some.inj hg)
      exact pos_of_roundsTo h hup hf
    · split at hg
      · obtain ⟨rfl, -⟩ := Prod.mk.inj (Option.some.inj hg)
        exact Nat.succ_pos _
      · cases hg

/-- The shortest digits lead, if there are any. -/
theorem shortest_cases {units : Nat} (h : 0 < units) :
    shortest units = ⟨[], 1⟩ ∨ IsLeading (shortest units).digits := by
  unfold shortest
  cases hf : (List.range 17).findSome? fun n => onGrid? units (n + 1) with
  | none => exact Or.inl rfl
  | some g =>
      obtain ⟨c, e⟩ := g
      obtain ⟨n, -, hn⟩ := List.exists_of_findSome?_eq_some hf
      exact Or.inr (isLeading_decimalDigits (onGrid?_pos h hn)).trim

end Number

/-! ## Layouts -/

namespace Double

open Number (Digits)

theorem positional_eq (d : Digits) :
    positional d =
      if d.point ≤ 0 then '0' :: '.' :: List.replicate (-d.point).toNat '0' ++ d.digits
      else if d.digits.length ≤ d.point.toNat then
        d.digits ++ List.replicate (d.point.toNat - d.digits.length) '0' ++ ['.', '0']
      else d.digits.take d.point.toNat ++ '.' :: d.digits.drop d.point.toNat := rfl

theorem scientific_eq (width : Nat) (d : Digits) :
    scientific width d =
      d.digits.take 1 ++ (if d.digits.drop 1 = [] then [] else '.' :: d.digits.drop 1)
        ++ 'e' :: (if d.point - 1 < 0 then '-' else '+')
          :: (List.replicate (width - digitCount (d.point - 1).natAbs) '0'
            ++ decimalDigits (d.point - 1).natAbs) := by
  simp [scientific, digitCount]
  rfl

/-- Leading digits around a point are a numeral. -/
theorem exists_numeral_positional (s : Bool) {d : Digits} (h : IsLeading d.digits) :
    ∃ n : Numeral, n.negative = s ∧ n.isWhole = false ∧ n.body = positional d := by
  rw [positional_eq]
  split
  · refine ⟨⟨s, ['0'], List.replicate (-d.point).toNat '0' ++ d.digits, none, nofun,
      isDigit_zeros 1, .inl rfl, isDigit_append (isDigit_zeros _) h.digits, nofun, nofun⟩, rfl, ?_, ?_⟩
    · simp [Numeral.isWhole, h.ne_nil]
    · simp [Numeral.body, Numeral.fraction, Numeral.power, h.ne_nil]
  · rename_i hp
    split
    · have hl := h.append (isDigit_zeros (d.point.toNat - d.digits.length))
      exact ⟨⟨s, _, ['0'], none, hl.ne_nil, hl.digits, .inr hl.head, isDigit_zeros 1, nofun, nofun⟩,
        rfl, rfl, by simp [Numeral.body, Numeral.fraction, Numeral.power]⟩
    · rename_i hlt
      have hl := h.take (n := d.point.toNat) (by omega)
      have hd : d.digits.drop d.point.toNat ≠ [] := by simpa using hlt
      refine ⟨⟨s, _, d.digits.drop d.point.toNat, none, hl.ne_nil, hl.digits, .inr hl.head,
        fun c hc => h.digits c (List.mem_of_mem_drop hc), nofun, nofun⟩, rfl, ?_, ?_⟩
      · simpa [Numeral.isWhole] using hlt
      · simp only [Numeral.body, Numeral.fraction, Numeral.power, if_neg hd, List.append_nil]

/-- Leading digits with an exponent are a numeral. -/
theorem exists_numeral_scientific (s : Bool) (width : Nat) {d : Digits} (h : IsLeading d.digits) :
    ∃ n : Numeral, n.negative = s ∧ n.isWhole = false ∧ n.body = scientific width d := by
  have hl := h.take (n := 1) Nat.one_pos
  rw [scientific_eq]
  have hne : List.replicate (width - digitCount (d.point - 1).natAbs) '0'
      ++ decimalDigits (d.point - 1).natAbs ≠ [] :=
    List.append_ne_nil_of_right_ne_nil _ Nat.toDigits_ne_nil
  have hd : ∀ c ∈ List.replicate (width - digitCount (d.point - 1).natAbs) '0'
      ++ decimalDigits (d.point - 1).natAbs, c.isDigit = true :=
    isDigit_append (isDigit_zeros _) (isDigit_decimalDigits _)
  generalize List.replicate (width - digitCount (d.point - 1).natAbs) '0'
    ++ decimalDigits (d.point - 1).natAbs = ds at hne hd
  refine ⟨⟨s, d.digits.take 1, d.digits.drop 1, some (d.point - 1 < 0, ds), hl.ne_nil, hl.digits,
    .inr hl.head, fun c hc => h.digits c (List.mem_of_mem_drop hc), ?_, ?_⟩, rfl, ?_, ?_⟩
  · rintro e ⟨⟩
    exact hne
  · rintro e ⟨⟩
    exact hd
  · simp [Numeral.isWhole]
  · simp [Numeral.body, Numeral.fraction, Numeral.power]

/-- The text of a finite number is a numeral that is no integer by its form. -/
theorem exists_numeral_write (s : Bool) (u : Nat) :
    ∃ n : Numeral, n.negative = s ∧ n.isWhole = false ∧
      (Double.finite s u).write Value.numberLayout = String.ofList n.text := by
  have hzero : ∃ n : Numeral, n.negative = s ∧ n.isWhole = false ∧ n.body = ['0', '.', '0'] :=
    ⟨⟨s, ['0'], ['0'], none, nofun, isDigit_zeros 1, .inl rfl, isDigit_zeros 1, nofun, nofun⟩,
      rfl, rfl, rfl⟩
  cases u with
  | zero =>
      obtain ⟨n, hs, hw, hb⟩ := hzero
      refine ⟨n, hs, hw, ?_⟩
      rw [Numeral.text, Numeral.sign, hs, hb]
      rfl
  | succ k =>
      obtain ⟨n, hs, hw, hb⟩ : ∃ n : Numeral, n.negative = s ∧ n.isWhole = false ∧
          n.body = if -4 ≤ (shortest (k + 1)).point - 1 ∧ (shortest (k + 1)).point - 1 < 16
            then positional (shortest (k + 1)) else scientific 2 (shortest (k + 1)) := by
        rcases Number.shortest_cases (Nat.succ_pos k) with hd | hl
        · rw [hd]
          exact hzero
        · split
          · exact exists_numeral_positional s hl
          · exact exists_numeral_scientific s 2 hl
      refine ⟨n, hs, hw, ?_⟩
      rw [Numeral.text, Numeral.sign, hs, hb]
      rfl

/-! ## Reading back -/

/-- Whether the text of a number denotes the number. -/
def Survives (x : Double) : Prop := Number.readDouble? (x.write Value.numberLayout) = some x

instance (x : Double) : Decidable x.Survives := inferInstanceAs (Decidable (_ = _))

theorem survives_nan : Double.nan.Survives := by decide

theorem survives_inf (s : Bool) : (Double.inf s).Survives := by
  cases s <;> decide

theorem writeDouble_finite (s : Bool) (u : Nat) :
    Json.writeDouble (.finite s u) = ((Double.finite s u).write Value.numberLayout).toList := by
  unfold Json.writeDouble
  rfl

end Double

end Cockpit
