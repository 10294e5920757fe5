import Cockpit.Proofs.Json.Objects
import Cockpit.Proofs.Telemetry.Verdicts
import Mathlib.Data.List.Nodup

/-!
# Fields of packets

A packet on the wire is the text of an object whose entries are the fields of the packet among
others.  A key may occur more than once, and then the last value under it counts (`lastOf`).

Texts and null are read back as they are, whatever characters stand in them, and other values do
not matter as long as the reader takes them.  So each field of the packet that is decoded is the
last text under its key (`Decoder.parse_fields`).
-/

namespace Cockpit

open Op

namespace Telemetry

/-! ## Fields -/

/-- A known field of a packet. -/
inductive Field where
  | model | marker | latitude | longitude | elevation | upload
  | increment | decrement | «show» | hide | toggle | response
  deriving DecidableEq

namespace Field

/-- The key of a field in an object. -/
def key : Field → String
  | model => "Model"
  | marker => "Marker"
  | latitude => "Latitude"
  | longitude => "Longitude"
  | elevation => "Elevation"
  | upload => "Upload"
  | increment => "Increment"
  | decrement => "Decrement"
  | «show» => "Show"
  | hide => "Hide"
  | toggle => "Toggle"
  | response => "Response"

/-- What a packet has in a field. -/
def of : Field → Packet → Option String
  | model => Packet.model
  | marker => Packet.marker
  | latitude => Packet.latitude
  | longitude => Packet.longitude
  | elevation => Packet.elevation
  | upload => Packet.upload
  | increment => Packet.increment
  | decrement => Packet.decrement
  | «show» => Packet.show
  | hide => Packet.hide
  | toggle => Packet.toggle
  | response => Packet.response

theorem of_ofEntries (f : Field) (es : Entries) :
    f.of (Packet.ofEntries es) = Packet.fieldOf es f.key := by
  cases f <;> rfl

end Field

/-- Whether a value gives the text of a field as it is: a text gives itself, and null or nothing
at all gives none. -/
inductive Carries : Option Value → Option String → Prop where
  | absent : Carries none none
  | null : Carries (some .null) none
  | text (t : String) : Carries (some (.text t)) (some t)

theorem Carries.fieldOf {v? : Option Value} {t? : Option String} (h : Carries v? t?) {es : Entries}
    {key : String} {d : Nat} (hes : es.get? key = v?.bind (Value.reread d)) :
    Packet.fieldOf es key = t? := by
  rw [Packet.fieldOf, hes]
  cases h with
  | absent => rfl
  | null => rw [Option.bind_some, (Value.Fits.null d).reread]
  | text t => rw [Option.bind_some, (Value.Fits.text d t).reread]; rfl

namespace Decoder

/-- A text of permitted length with an object is a packet, and the last value under the key of a
known field is what the packet has in that field. -/
theorem parse_fields {s : Json.Style} (hs : s.Spaced) {es : List (String × Value)}
    {texts : Field → Option String} (hreadable : ∀ e ∈ es, Json.Readable s e.2)
    (hcarries : ∀ f : Field, Carries (lastOf es f.key) (texts f))
    (hlength : (Json.write s (.object es)).length ≤ lengthLimit) (t : Decoder) (j : Log.Journal) :
    ∃ p, (t.parse (.text (Json.write s (.object es)))).run j = (.ok (t.accept p, some p), j) ∧
      ∀ f : Field, f.of p = texts f := by
  obtain ⟨es', hread, hlast⟩ := Json.read_object hs hreadable
  have hne : Json.write s (.object es) ≠ "" := by
    intro hempty
    have hnone : Json.read "" = .error (.syntaxError .value 0) := rfl
    rw [hempty, hnone] at hread
    cases hread
  have hdecode : (t.decode (Json.write s (.object es))).run j =
      (.ok (t.accept (.ofEntries es'), some (.ofEntries es')), j) := by
    rw [decode, hread]
    rfl
  refine ⟨.ofEntries es', ?_, fun f => ?_⟩
  · rcases parse_text_cases t (Json.write s (.object es)) j with ⟨hempty, -⟩ | ⟨-, hlong, -⟩ |
      ⟨-, -, hrun⟩
    · exact absurd hempty hne
    · exact absurd hlength (Nat.not_le.mpr hlong)
    · exact hrun.trans hdecode
  · rw [Field.of_ofEntries]
    exact (hcarries f).fieldOf (hlast f.key)

/-- Entries with a field that is repeated, characters that need escapes, and values that are no
texts beside them. -/
def awkwardEntries : List (String × Value) :=
  [("Response", .text "old"), ("Extra", .list [.object [("Model", .float .nan)], .int (-7)]),
    ("Model", .text "A\"\\\n\x00é😀"), ("Response", .null), ("Marker", .int 5), ("Marker", .text "")]

/-- The texts of these entries. -/
def awkwardTexts : Field → Option String
  | .model => some "A\"\\\n\x00é😀"
  | .marker => some ""
  | _ => none

/-- These entries as a text, in ASCII or not. -/
def awkwardText (escapeAll : Bool) : String :=
  Json.write { Json.Style.plain with escapeAll } (.object awkwardEntries)

theorem fits_awkward : ∀ e ∈ awkwardEntries, e.2.Fits Json.innerLimit := by
  have hextra : (Value.list [.object [("Model", .float .nan)], .int (-7)]).Fits
      Json.innerLimit := by
    refine .list fun x hx => ?_
    rcases List.mem_pair.mp hx with rfl | rfl
    · refine .object (List.nodup_singleton _) fun e he => ?_
      exact List.mem_singleton.mp he ▸ .float _ Double.survives_nan
    · exact .int _ (by decide)
  intro e he
  simp only [awkwardEntries, List.mem_cons, List.not_mem_nil, or_false] at he
  rcases he with rfl | rfl | rfl | rfl | rfl | rfl
  · exact .text _ _
  · exact hextra
  · exact .text _ _
  · exact .null _
  · exact .int _ (by decide)
  · exact .text _ _

theorem parse_fields_awkward :
    (∃ p, (parse {} (.text (awkwardText false))).run {} = (.ok (accept {} p, some p), {}) ∧
      ∀ f : Field, f.of p = awkwardTexts f) ∧
    ∃ p, (parse {} (.text (awkwardText true))).run {} = (.ok (accept {} p, some p), {}) ∧
      ∀ f : Field, f.of p = awkwardTexts f := by
  have parsed (escapeAll : Bool) (hlength : (awkwardText escapeAll).length ≤ lengthLimit) :
      ∃ p, (parse {} (.text (awkwardText escapeAll))).run {} =
        (.ok (accept {} p, some p), {}) ∧ ∀ f : Field, f.of p = awkwardTexts f := by
    have hs : Json.Style.Spaced { Json.Style.plain with escapeAll } :=
      Json.spaced_plain.escaping escapeAll
    have hcarries (f : Field) : Carries (lastOf awkwardEntries f.key) (awkwardTexts f) := by
      cases f <;> constructor
    exact parse_fields hs (fun e he => Json.readable_of_fits hs (fits_awkward e he)) hcarries
      hlength {} {}
  exact ⟨parsed false (by decide +kernel), parsed true (by decide +kernel)⟩

end Decoder

end Telemetry

end Cockpit
