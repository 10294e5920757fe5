import Cockpit.Proofs.Json.RoundTrip

/-!
# JSON text in ASCII

A style that escapes everything beyond ASCII writes printable characters and line feeds alone,
whatever the value (`Json.write_printed`).  So the text of a settings file has no carriage return
that reading it would change, and each of its characters is one byte.
-/

namespace Cockpit.Json

variable {s : Style} {c : Char}

/-- Whether a character is a line feed or a printable one in ASCII. -/
def IsPrinted (c : Char) : Prop := c = '\n' ∨ (0x20 ≤ c.toNat ∧ c.toNat < 0x7F)

/-- Whether all characters of a text are printed. -/
def Printed (cs : List Char) : Prop := ∀ c ∈ cs, IsPrinted c

instance (c : Char) : Decidable (IsPrinted c) :=
  inferInstanceAs (Decidable (c = '\n' ∨ (0x20 ≤ c.toNat ∧ c.toNat < 0x7F)))

instance (cs : List Char) : Decidable (Printed cs) := List.decidableBAll IsPrinted cs

/-- Whether a style escapes what is beyond ASCII and puts nothing else from there between the
values. -/
structure Style.Printed (s : Style) : Prop where
  escapeAll : s.escapeAll = true
  comma : Json.Printed s.comma.toList
  colon : Json.Printed s.colon.toList

theorem printed_file : Style.file.Printed := ⟨rfl, by decide, by decide⟩

theorem Printed.append {cs ds : List Char} (hc : Printed cs) (hd : Printed ds) :
    Printed (cs ++ ds) := by
  intro c hm
  rcases List.mem_append.mp hm with hm | hm
  · exact hc c hm
  · exact hd c hm

theorem Printed.cons {cs : List Char} (hc : IsPrinted c) (hcs : Printed cs) :
    Printed (c :: cs) := by
  intro d hd
  rcases List.mem_cons.mp hd with rfl | hd
  · exact hc
  · exact hcs d hd

/-! ## Strings -/

theorem printed_codeEscape {n : Nat} (h : n < 0x10000) : Printed (codeEscape n) := by
  have hdigit : ∀ d < 16, IsPrinted (Nat.digitChar d) := by decide
  rw [codeEscape, hexDigits_four h]
  intro c hc
  simp only [List.mem_cons, List.not_mem_nil, or_false] at hc
  rcases hc with rfl | rfl | rfl | rfl | rfl | rfl
  · decide
  · decide
  all_goals exact hdigit _ (by omega)

theorem printed_of_shortEscape {e : Char} (h : shortEscape? e = some c) : IsPrinted e := by
  unfold shortEscape? at h
  split at h
  case h_9 => cases h
  all_goals decide

theorem printed_writeChar (c : Char) : Printed (writeChar true c) := by
  rcases writeChar_cases true c with ⟨e, h, he⟩ | ⟨hn, h⟩ | ⟨hi, lo, h, hhi, hlo, -⟩ |
    ⟨-, -, hlow, hhigh, h⟩
  · rw [h]
    exact .cons (by decide) (.cons (printed_of_shortEscape he) (List.forall_mem_nil _))
  · rw [h]
    exact printed_codeEscape hn
  · rw [h]
    exact (printed_codeEscape (lt_of_isHighSurrogate hhi)).append
      (printed_codeEscape (lt_of_isLowSurrogate hlo))
  · rw [h]
    intro d hd
    cases List.mem_singleton.mp hd
    exact .inr ⟨hlow, hhigh rfl⟩

theorem printed_writeString (t : String) : Printed (writeString true t) := by
  have hbody : Printed (t.toList.flatMap (writeChar true)) := by
    intro c hc
    obtain ⟨d, -, hd⟩ := List.mem_flatMap.mp hc
    exact printed_writeChar d c hd
  exact .cons (by decide) (hbody.append (by decide))

/-! ## Values -/

theorem printed_text (n : Numeral) : Printed n.text := by
  intro c hc
  obtain ⟨hlow, hhigh, -⟩ := (n.isPart_text c hc).toNat_lt
  exact .inr ⟨Nat.le_of_lt hlow, hhigh⟩

theorem printed_writeDouble (x : Double) : Printed (writeDouble x) := by
  cases x with
  | nan => decide
  | inf s => cases s <;> decide
  | finite s u =>
      obtain ⟨n, -, -, ht⟩ := Double.exists_numeral_write s u
      rw [Double.writeDouble_finite, ht, String.toList_ofList]
      exact printed_text n

theorem printed_lineBreak (s : Style) (level : Nat) : Printed (lineBreak s level) := by
  intro c hc
  rw [lineBreak] at hc
  split at hc
  · rcases List.mem_cons.mp hc with rfl | hc
    · exact .inl rfl
    · cases List.eq_of_mem_replicate hc
      exact .inr (by decide)
  · cases hc

theorem printed_intercalate {sep : List Char} (hs : Printed sep) {parts : List (List Char)}
    (hp : ∀ p ∈ parts, Printed p) : Printed (sep.intercalate parts) := by
  induction parts with
  | nil => nofun
  | cons p ps ih =>
      have hps : Printed (sep.intercalate ps) := ih fun q hq => hp q (List.mem_cons_of_mem p hq)
      cases ps with
      | nil =>
          rw [List.intercalate_singleton]
          exact hp p List.mem_cons_self
      | cons q qs =>
          rw [List.intercalate_cons_cons]
          exact ((hp p List.mem_cons_self).append hs).append hps

theorem printed_enclose (hs : s.Printed) (level : Nat) {opening closing : Char}
    (ho : IsPrinted opening) (hc : IsPrinted closing) {parts : List (List Char)}
    (hp : ∀ p ∈ parts, Printed p) : Printed (enclose s level opening closing parts) := by
  have hclosing : Printed [closing] := .cons hc (List.forall_mem_nil _)
  have hline := printed_lineBreak s (level + 1)
  cases parts with
  | nil => exact .cons ho hclosing
  | cons p ps =>
      have hrow := printed_intercalate (hs.comma.append hline) hp
      exact (((Printed.cons ho hline).append hrow).append (printed_lineBreak s level)).append
        hclosing

mutual

theorem writeAt_printed (hs : s.Printed) (level : Nat) : ∀ v : Value, Printed (writeAt s level v)
  | .null => by
      rw [writeAt]
      decide
  | .bool b => by
      rw [writeAt]
      cases b <;> decide
  | .int n => by
      rw [writeAt, ← Numeral.text_ofInt]
      exact printed_text _
  | .float x => by
      rw [writeAt]
      exact printed_writeDouble x
  | .text t => by
      rw [writeAt, hs.escapeAll]
      exact printed_writeString t
  | .list xs => by
      rw [writeAt]
      exact printed_enclose hs level (by decide) (by decide) (writeItems_printed hs (level + 1) xs)
  | .object es => by
      rw [writeAt]
      exact printed_enclose hs level (by decide) (by decide)
        (writeEntries_printed hs (level + 1) es)
termination_by structural v => v

theorem writeItems_printed (hs : s.Printed) (level : Nat) :
    ∀ xs : List Value, ∀ p ∈ writeItems s level xs, Printed p
  | [] => nofun
  | x :: xs => by
      rw [writeItems]
      intro p hp
      rcases List.mem_cons.mp hp with rfl | hp
      · exact writeAt_printed hs level x
      · exact writeItems_printed hs level xs p hp
termination_by structural xs => xs

theorem writeEntries_printed (hs : s.Printed) (level : Nat) :
    ∀ es : List (String × Value), ∀ p ∈ writeEntries s level es, Printed p
  | [] => nofun
  | (k, x) :: es => by
      rw [writeEntries]
      intro p hp
      rcases List.mem_cons.mp hp with rfl | hp
      · have hkey : Printed (writeString s.escapeAll k) := by
          rw [hs.escapeAll]
          exact printed_writeString k
        exact (hkey.append hs.colon).append (writeAt_printed hs level x)
      · exact writeEntries_printed hs level es p hp
termination_by structural es => es

end

/-- All that such a style writes is printed. -/
theorem write_printed (hs : s.Printed) (v : Value) : Printed (write s v).toList := by
  rw [write, String.toList_ofList]
  exact writeAt_printed hs 0 v

end Cockpit.Json
