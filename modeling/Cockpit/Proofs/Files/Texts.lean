import Cockpit.Files.Tree

/-!
# The text of a file

`Files.textOf` is the text that the bytes of a file hold, with the line ends of all systems as
line feeds.  `Files.textOf_encode` says that a text in ASCII without carriage returns is the text
of its own bytes.
-/

namespace Cockpit

namespace Text.Utf8

theorem encode_append (s t : String) : encode (s ++ t) = encode s ++ encode t := by
  rw [encode, String.toList_append, List.flatMap_append]
  rfl

/-- A byte below the leading ones stands for a character of its own. -/
theorem decodeFrom_low {a : UInt8} (h : a < 0x80) (pos : Nat) (r : List UInt8) :
    decodeFrom pos (a :: r) = (decodeFrom (pos + 1) r).map (Char.ofNat a.toNat :: ·) := by
  rw [decodeFrom.eq_def]
  exact if_pos h

/-- Bytes of characters in ASCII are read back. -/
theorem decodeFrom_encode {cs : List Char} (h : ∀ c ∈ cs, c.toNat < 0x80) (pos : Nat) :
    decodeFrom pos (cs.flatMap encodeChar) = .ok cs := by
  induction cs generalizing pos with
  | nil => rfl
  | cons c cs ih =>
      have hc : c.toNat < 0x80 := h c List.mem_cons_self
      have hbyte : (UInt8.ofNat c.toNat).toNat = c.toNat := by
        simp only [UInt8.toNat_ofNat']
        omega
      have hlow : UInt8.ofNat c.toNat < 0x80 := by
        rw [UInt8.lt_iff_toNat_lt, hbyte]
        exact hc
      rw [List.flatMap_cons, encodeChar, if_pos hc, List.singleton_append, decodeFrom_low hlow,
        ih (fun d hd => h d (List.mem_cons_of_mem c hd)), hbyte, Char.ofNat_toNat]
      rfl

end Text.Utf8

namespace Files

variable {t : Tree} {path : String} {bytes : List UInt8} {s : String}

/-- The text of a file of bytes. -/
def textOf (bytes : List UInt8) : Except Fault String :=
  match Text.Utf8.decode bytes with
  | .ok s => .ok (String.ofList (Tree.unixLines s.toList))
  | .error d => .error (.notUtf8 d)

theorem readText_eq (h : t.read path = .ok bytes) : t.readText path = textOf bytes := by
  rw [Tree.readText, h]
  rfl

theorem unixLines_eq_self {cs : List Char} (h : '\r' ∉ cs) : Tree.unixLines cs = cs := by
  induction cs with
  | nil => rfl
  | cons c cs ih =>
      have hc : c ≠ '\r' := fun he => h (he ▸ List.mem_cons_self)
      have hrest := ih fun hmem => h (List.mem_cons_of_mem c hmem)
      unfold Tree.unixLines
      split
      · cases ‹_ = _›
      · rename_i heq
        cases heq
        exact absurd rfl hc
      · rename_i heq
        cases heq
        exact absurd rfl hc
      · rename_i heq
        cases heq
        rw [hrest]

/-- A text in ASCII without carriage returns is the text of its own bytes. -/
theorem textOf_encode (h : s.toList.all fun c => c.toNat < 0x80 && c != '\r') :
    textOf (Text.Utf8.encode s) = .ok s := by
  have hplain (c : Char) (hc : c ∈ s.toList) : c.toNat < 0x80 ∧ c ≠ '\r' := by
    simpa using List.all_eq_true.mp h c hc
  have hlines : Tree.unixLines s.toList = s.toList :=
    unixLines_eq_self fun hmem => (hplain _ hmem).2 rfl
  rw [textOf, Text.Utf8.decode, Text.Utf8.encode,
    Text.Utf8.decodeFrom_encode (fun c hc => (hplain c hc).1) 0]
  simp only [Except.map, hlines, String.ofList_toList]

end Files

end Cockpit
