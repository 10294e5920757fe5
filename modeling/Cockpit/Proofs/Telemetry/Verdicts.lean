import Cockpit.Proofs.Json.Endings
import Cockpit.Proofs.Json.RoundTrip
import Cockpit.Proofs.Op.Outcome
import Cockpit.Telemetry

/-!
# Verdicts on packets

`Decoder.Settles` says what is to become of a text that a decoder is given.  Of an empty one
nothing.  A text of permitted length that holds an object gives a packet.  Any other text is
refused, which counts one error and leaves everything else as it was.

`Decoder.parse_settles_iff` says that this is so as long as the JSON reader does not exceed one
of its own limits, and that it does not exceed them on a text with no more brackets and no
longer runs of digits than the limits.  Beyond them the decoder stops instead of refusing, as
`Decoder.not_settles_digits` shows of a run of digits.
-/

namespace Cockpit

open Op

namespace Json

/-- Digits without a leading zero are a numeral for an integer. -/
theorem exists_whole {ds : List Char} (hne : ds ≠ []) (hd : ∀ c ∈ ds, c.isDigit = true)
    (hlead : ds.head? ≠ some '0') :
    ∃ n : Numeral, n.whole = ds ∧ n.text = ds ∧ n.isWhole = true := by
  let n : Numeral :=
    { negative := false, whole := ds, places := [], exponent := none, whole_ne := hne,
      whole_digits := hd, whole_lead := Or.inr hlead, places_digits := by simp,
      exponent_ne := by simp, exponent_digits := by simp }
  refine ⟨n, rfl, ?_, rfl⟩
  change [] ++ (ds ++ [] ++ []) = ds
  simp only [List.nil_append, List.append_nil]

/-- A run of too many digits is refused for that. -/
theorem read_digits {ds : List Char} (hd : ∀ c ∈ ds, c.isDigit = true)
    (hlead : ds.head? ≠ some '0') (hlong : Number.digitLimit < ds.length) :
    read (String.ofList ds) = .error (.numeralTooLong ds.length) := by
  obtain ⟨c, cs, rfl⟩ := List.exists_cons_of_length_pos (Nat.zero_lt_of_lt hlong)
  have hc := hd c List.mem_cons_self
  obtain ⟨n, hdigits, htext, hwhole⟩ := exists_whole (List.cons_ne_nil c cs) hd hlead
  have hnumber : readNumber ⟨c :: cs, 0⟩ = .error (.numeralTooLong (c :: cs).length) := by
    have hend : EndsNumber [] := nofun
    have h := n.readNumber_text hend 0
    rw [htext, List.append_nil] at h
    rw [h, if_pos hwhole, hdigits]
    exact if_pos hlong
  have hplain : readPlain ⟨c :: cs, 0⟩ = .error (.numeralTooLong (c :: cs).length) := by
    have hfind := find?_named_text n []
    rw [htext, List.append_nil] at hfind
    rw [readPlain, hfind]
    exact hnumber
  have hblank : NoBlank (c :: cs) := noBlank_cons (by
    simp only [isBlank, Bool.or_eq_false_iff, beq_eq_false_iff_ne]
    exact ⟨⟨⟨ne_of_isDigit hc rfl, ne_of_isDigit hc rfl⟩, ne_of_isDigit hc rfl⟩,
      ne_of_isDigit hc rfl⟩) cs
  have hmark : ¬ (c :: cs).head? = some '\uFEFF' := fun h =>
    ne_of_isDigit hc rfl (Option.some.inj h)
  rw [read, String.toList_ofList]
  simp only [if_neg hmark, skipBlanks_of_noBlank hblank,
    readNested_plain depthLimit (ne_of_isDigit hc rfl) (ne_of_isDigit hc rfl)
      (ne_of_isDigit hc rfl) cs 0, hplain]
  rfl

end Json

namespace Telemetry.Decoder

/-- Whether a text is a packet of permitted length, and which. -/
def IsPacket (text : String) (es : Entries) : Prop :=
  text.length ≤ lengthLimit ∧ Json.read text = .ok (.object es)

/-- What a decoder is to do with a text: nothing if it is empty, else to accept a packet and to
refuse all that is none. -/
def Settles (t : Decoder) (text : String) : Except Fault (Decoder × Option Packet) → Prop
  | .error _ => False
  | .ok (t', p) =>
    (text = "" ∧ t' = t ∧ p = none) ∨
    (∃ es, IsPacket text es ∧ t' = t.accept (.ofEntries es) ∧ p = some (.ofEntries es)) ∨
    (text ≠ "" ∧ (¬ ∃ es, IsPacket text es) ∧ t' = t.refuse ∧ p = none)

variable {t : Decoder} {text : String} {j : Log.Journal}

/-- A text is decoded if it is not empty and not too long. -/
theorem parse_text_cases (t : Decoder) (text : String) (j : Log.Journal) :
    (text = "" ∧ ((t.parse (.text text)).run j).1 = .ok (t, none)) ∨
    (text ≠ "" ∧ lengthLimit < text.length ∧
      ((t.parse (.text text)).run j).1 = .ok (t.refuse, none)) ∨
    (text ≠ "" ∧ text.length ≤ lengthLimit ∧
      (t.parse (.text text)).run j = (t.decode text).run j) := by
  have hrun : (t.parse (.text text)).run j =
      (if !(text != "") then pure (t, none)
        else if lengthLimit < text.length then
          t.refuseWith s!"Telemetry packet too long: {text.length} chars (max: {lengthLimit})"
        else t.decode text : Op Log.Journal (Decoder × Option Packet)).run j := by
    rw [parse, Value.isSet]
    split
    · rfl
    · rw [run_liftM_bind]
      rfl
  rw [hrun]
  by_cases hempty : text = ""
  · subst hempty
    exact Or.inl ⟨rfl, rfl⟩
  · rw [if_neg (by simpa using hempty)]
    refine Or.inr ?_
    by_cases hlong : lengthLimit < text.length
    · rw [if_pos hlong]
      exact Or.inl ⟨hempty, hlong, rfl⟩
    · rw [if_neg hlong]
      exact Or.inr ⟨hempty, Nat.le_of_not_lt hlong, rfl⟩

/-- A text that the reader takes, or refuses for its syntax, is settled. -/
theorem decode_settles (hne : text ≠ "") (hlen : text.length ≤ lengthLimit)
    (hs : ∀ f, Json.read text = .error f → f.isSyntax = true) :
    t.Settles text ((t.decode text).run j).1 := by
  have refused (h : ∀ es, Json.read text ≠ .ok (.object es)) :
      t.Settles text (.ok (t.refuse, none)) :=
    Or.inr (Or.inr ⟨hne, fun ⟨es, he⟩ => h es he.2, rfl, rfl⟩)
  rw [decode]
  cases hr : Json.read text with
  | error f =>
      cases f with
      | syntaxError r n => exact refused fun es h => nomatch hr.symm.trans h
      | numeralTooLong n => exact absurd (hs _ hr) nofun
      | tooDeep => exact absurd (hs _ hr) nofun
  | ok v =>
      cases v with
      | object es => exact Or.inr (Or.inl ⟨es, ⟨hlen, hr⟩, rfl, rfl⟩)
      | _ => exact refused fun es h => nomatch hr.symm.trans h

/-- A text beyond a limit of the reader stops the decoder. -/
theorem decode_stops {f : Json.Failure} (hr : Json.read text = .error f)
    (hf : f.isSyntax = false) : ∃ e, ((t.decode text).run j).1 = .error e := by
  rw [decode, hr]
  cases f with
  | syntaxError r n => cases hf
  | numeralTooLong n => exact ⟨_, rfl⟩
  | tooDeep => exact ⟨_, rfl⟩

/-- What the reader does with a text of permitted length decides whether the text is settled. -/
theorem parse_settles
    (hs : text.length ≤ lengthLimit → ∀ f, Json.read text = .error f → f.isSyntax = true) :
    t.Settles text ((t.parse (.text text)).run j).1 := by
  rcases parse_text_cases t text j with ⟨rfl, hrun⟩ | ⟨hne, hlong, hrun⟩ | ⟨hne, hlen, hrun⟩
  · rw [hrun]
    exact Or.inl ⟨rfl, rfl, rfl⟩
  · rw [hrun]
    have hnone : ¬ ∃ es, IsPacket text es := fun ⟨_, he⟩ => Nat.not_le.mpr hlong he.1
    exact Or.inr (Or.inr ⟨hne, hnone, rfl, rfl⟩)
  · rw [hrun]
    exact decode_settles hne hlen (hs hlen)

theorem parse_stops {f : Json.Failure} (hlen : text.length ≤ lengthLimit)
    (hr : Json.read text = .error f) (hf : f.isSyntax = false) :
    ∃ e, ((t.parse (.text text)).run j).1 = .error e := by
  rcases parse_text_cases t text j with ⟨rfl, -⟩ | ⟨-, hlong, -⟩ | ⟨-, -, hrun⟩
  · -- The empty text is refused for its syntax.
    cases hr
    cases hf
  · exact absurd hlen (Nat.not_le.mpr hlong)
  · rw [hrun]
    exact decode_stops hr hf

/-- A decoder settles a text unless the text is of permitted length and exceeds a limit of the
JSON reader.  A text with no longer run of digits and no more brackets than the limits exceeds
none. -/
theorem parse_settles_iff (t : Decoder) (text : String) (j : Log.Journal) :
    (t.Settles text ((t.parse (.text text)).run j).1 ↔
      (text.length ≤ lengthLimit → ∀ f, Json.read text = .error f → f.isSyntax = true)) ∧
    (Json.Modest text.toList → t.Settles text ((t.parse (.text text)).run j).1) := by
  refine ⟨⟨fun hsettles hlen f hr => ?_, parse_settles⟩,
    fun hm => parse_settles fun _ _ hr => hm.isSyntax hr⟩
  cases hf : f.isSyntax with
  | true => rfl
  | false =>
      obtain ⟨e, he⟩ := parse_stops (t := t) (j := j) hlen hr hf
      rw [he] at hsettles
      exact False.elim hsettles

/-- A run of one digit more than an integer may have, which is within the permitted length, is
not refused. -/
theorem not_settles_digits :
    ¬ Settles {} (String.ofList (List.replicate 4301 '1'))
      ((parse {} (.text (String.ofList (List.replicate 4301 '1')))).run {}).1 := by
  have hdigits : ∀ c ∈ List.replicate 4301 '1', c.isDigit = true := fun c hc =>
    (List.eq_of_mem_replicate hc) ▸ rfl
  have hlong : Number.digitLimit < (List.replicate 4301 '1').length := by
    rw [List.length_replicate]
    decide
  have hlen : (String.ofList (List.replicate 4301 '1')).length ≤ lengthLimit := by
    rw [String.length_ofList, List.length_replicate]
    decide
  have hread := Json.read_digits hdigits (by rw [List.head?_replicate]; decide) hlong
  obtain ⟨e, he⟩ := parse_stops (t := {}) (j := {}) hlen hread rfl
  rw [he]
  exact id

end Telemetry.Decoder

end Cockpit
