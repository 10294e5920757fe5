import Cockpit.Proofs.Session.Doings
import Cockpit.Proofs.Session.Hearing

/-!
# The counters of a session

A decoder that does not stop at a raw packet is afterwards `Decoder.next`: it accepts the packet
that it is given, refuses what is set and is none, and ignores the rest.  So what it remembers
of many raw packets is a matter of the list of them (`Decoder.followAll_spec`).

A session counts the same refusals, and the uploads that failed.  `Session.Tallied` says that
both are in balance over all that is done, however deep inside of senders.  A deed with a sender
counts only when its sender has ended, so it adds to the balance of what its sender does
(`Tallied.enter`), and `Deed.doings_tracked` carries the balance along a whole run.
-/

namespace Cockpit

open Op

/-! ## What a decoder remembers -/

namespace Telemetry

/-- The packet that a raw packet is, if it is one. -/
def packetOf : Value → Option Packet
  | .text text => packetIn text
  | _ => none

/-- The marker of a packet if it is not empty. -/
def Packet.marker? (p : Packet) : Option String := p.marker.filter (· != "")

/-- What is not set is no packet. -/
theorem isSet_of_packetOf {raw : Value} {p : Packet} (h : packetOf raw = some p) :
    raw.isSet = true := by
  cases raw with
  | text text =>
      refine bne_iff_ne.mpr ?_
      rintro rfl
      cases h
  | _ => cases h

namespace Decoder

/-- The decoder after a raw packet at which it does not stop. -/
def next (t : Decoder) (raw : Value) : Decoder :=
  match packetOf raw with
  | some p => t.accept p
  | none => if raw.isSet then t.refuse else t

/-- The decoder after raw packets at none of which it stops. -/
def followAll (t : Decoder) (raws : List Value) : Decoder := raws.foldl next t

variable {t t' : Decoder} {raw : Value} {raws : List Value} {p : Packet} {j : Log.Journal}

theorem next_of_packet (h : packetOf raw = some p) : t.next raw = t.accept p := by
  rw [next, h]

theorem next_of_none (h : packetOf raw = none) :
    t.next raw = if raw.isSet then t.refuse else t := by
  rw [next, h]

/-- What is no text is no packet.  It is refused if it is too long, and otherwise ignored or a
mistake. -/
theorem parse_other_ok {p : Option Packet} (hraw : ∀ text, raw ≠ .text text)
    (h : ((t.parse raw).run j).1 = .ok (t', p)) :
    p = none ∧ t' = if raw.isSet then t.refuse else t := by
  rw [parse] at h
  swap
  · exact hraw
  cases hset : raw.isSet with
  | false =>
      rw [hset] at h
      cases h
      exact ⟨rfl, rfl⟩
  | true =>
      rw [hset, if_neg (by decide), run_liftM_bind] at h
      cases hsize : raw.size with
      | error f =>
          rw [hsize] at h
          cases h
      | ok size =>
          rw [hsize] at h
          dsimp only at h
          split at h
          · cases h
            exact ⟨rfl, rfl⟩
          · cases h

/-- A decoder that does not stop at a raw packet gives the packet that it is. -/
theorem parse_ok {p : Option Packet} (h : ((t.parse raw).run j).1 = .ok (t', p)) :
    p = packetOf raw ∧ t' = t.next raw := by
  cases raw with
  | text text => exact parse_text_ok h
  | _ => exact parse_other_ok (by rintro _ ⟨⟩) h

/-! ### Many raw packets -/

theorem errors_next (t : Decoder) (raw : Value) : (t.next raw).errorCount =
    t.errorCount + if raw.isSet && (packetOf raw).isNone then 1 else 0 := by
  rw [next]
  cases packetOf raw with
  | some p =>
      rw [Option.isNone_some, Bool.and_false]
      rfl
  | none =>
      rw [Option.isNone_none, Bool.and_true]
      cases raw.isSet with
      | true => rfl
      | false => rfl

theorem followAll_cons (t : Decoder) (raw : Value) (raws : List Value) :
    t.followAll (raw :: raws) = (t.next raw).followAll raws := rfl

/-- The last one of a list is its first one only if there is no other. -/
theorem getLast?_cons_or {α : Type} (a : α) (as : List α) (o : Option α) :
    (a :: as).getLast?.or o = as.getLast?.or (some a) := by
  rw [List.getLast?_cons]
  cases as.getLast? with
  | none => rfl
  | some b => rfl

theorem marker_accept (t : Decoder) (p : Packet) :
    (t.accept p).lastMarker = p.marker?.or t.lastMarker := by
  rw [accept, Packet.marker?, Packet.isFilled]
  cases p.marker with
  | none => rfl
  | some m =>
      rw [Option.filter_some, Option.any_some]
      cases m != "" with
      | true => rfl
      | false => rfl

/-- What a decoder remembers of raw packets: how many of them were set, how many were packets,
the last packet, and the last marker that was not empty. -/
theorem followAll_spec (t : Decoder) (raws : List Value) :
    (t.followAll raws).packetsParsed + (t.followAll raws).errorCount =
      t.packetsParsed + t.errorCount + raws.countP Value.isSet ∧
    (t.followAll raws).packetsParsed = t.packetsParsed + (raws.filterMap packetOf).length ∧
    (t.followAll raws).lastPacket = (raws.filterMap packetOf).getLast?.or t.lastPacket ∧
    (t.followAll raws).lastMarker =
      ((raws.filterMap packetOf).filterMap Packet.marker?).getLast?.or t.lastMarker := by
  induction raws generalizing t with
  | nil => exact ⟨rfl, rfl, rfl, rfl⟩
  | cons raw raws ih =>
      obtain ⟨hseen, hparsed, hpacket, hmarker⟩ := ih (t.next raw)
      rw [followAll_cons]
      cases h : packetOf raw with
      | none =>
          rw [List.filterMap_cons_none h]
          rw [next_of_none h] at hseen hparsed hpacket hmarker ⊢
          cases hset : raw.isSet with
          | false =>
              rw [hset] at hseen hparsed hpacket hmarker
              rw [List.countP_cons_of_neg (hset ▸ Bool.false_ne_true)]
              exact ⟨hseen, hparsed, hpacket, hmarker⟩
          | true =>
              rw [hset] at hseen hparsed hpacket hmarker
              rw [List.countP_cons_of_pos hset]
              refine ⟨hseen.trans ?_, hparsed, hpacket, hmarker⟩
              exact Nat.add_right_comm _ 1 _
      | some p =>
          rw [List.filterMap_cons_some h, List.countP_cons_of_pos (isSet_of_packetOf h)]
          rw [next_of_packet h] at hseen hparsed hpacket hmarker ⊢
          refine ⟨hseen.trans ?_, hparsed.trans ?_, ?_, ?_⟩
          · simp only [accept]
            omega
          · simp only [accept, List.length_cons]
            omega
          · rw [getLast?_cons_or]
            exact hpacket
          · rw [hmarker, marker_accept]
            cases hm : p.marker? with
            | none => rw [List.filterMap_cons_none hm, Option.none_or]
            | some m => rw [List.filterMap_cons_some hm, getLast?_cons_or, Option.some_or]

end Decoder

end Telemetry

/-! ## What a session counts -/

namespace Doing

/-- The raw packet of a doing if the decoder did not stop at it. -/
def heard (c : Doing) : Option Value :=
  match c.deed, c.outcome with
  | .telemetry raw, .ok _ => some raw
  | _, _ => none

/-- Whether a doing is an upload that a session took and whose agent reports failure. -/
def isFailedUpload (c : Doing) : Bool :=
  match c.report with
  | some (.ok false) => true
  | _ => false

variable {c : Doing}

theorem heard_of_not_telemetry (h : ∀ raw, c.deed ≠ .telemetry raw) : c.heard = none := by
  rw [heard]
  split
  · rename_i raw _ hd _
    exact absurd hd (h raw)
  · rfl

theorem report_of_not_sending (h : c.deed.isSending = false) : c.report = none := by
  rw [report]
  split
  · rename_i hd
    rw [hd] at h
    cases h
  · rfl

end Doing

namespace Session

open Telemetry

variable {s t u : Session} {cs cs' : List Doing} {raw : Value} {c : Doing}

theorem counted_decoder (r : Option (Except Fault Bool)) (s : Session) :
    (counted r s).decoder = s.decoder := by
  rcases r with _ | _ | _ | _
  · rfl
  · rfl
  · rfl
  · rfl

/-- Only the failure of an upload is an error. -/
theorem counted_errorCount (c : Doing) (s : Session) :
    (counted c.report s).errorCount = s.errorCount + if c.isFailedUpload then 1 else 0 := by
  rw [Doing.isFailedUpload]
  rcases c.report with _ | _ | _ | _
  · rfl
  · rfl
  · rfl
  · rfl

/-- Whether a session has decoded the raw packets of some doings, and has counted their refusals
and the uploads that failed. -/
structure Tallied (s : Session) (cs : List Doing) (t : Session) : Prop where
  decoder : t.decoder = s.decoder.followAll (cs.filterMap Doing.heard)
  errors : t.errorCount + s.decoder.errorCount =
    s.errorCount + t.decoder.errorCount + cs.countP Doing.isFailedUpload

namespace Tallied

theorem refl (s : Session) : Tallied s [] s := ⟨rfl, rfl⟩

theorem append (h : Tallied s cs t) (h' : Tallied t cs' u) : Tallied s (cs ++ cs') u where
  decoder := by
    rw [h'.decoder, h.decoder, List.filterMap_append]
    exact List.foldl_append.symm
  errors := by
    have he := h.errors
    have he' := h'.errors
    rw [List.countP_append]
    omega

/-- What only the journal, the builders or the bridge can tell apart is tallied alike. -/
theorem congr (h : Tallied s cs t) (hd : u.decoder = t.decoder)
    (he : u.errorCount = t.errorCount) : Tallied s cs u :=
  ⟨hd.trans h.decoder, by rw [hd, he]; exact h.errors⟩

/-- A doing that hears nothing and does not fail as an upload leaves the counts alone. -/
theorem single (hd : t.decoder = c.before.decoder) (he : t.errorCount = c.before.errorCount)
    (hheard : c.heard = none) (hreport : c.report = none) : Tallied c.before [c] t where
  decoder := by
    rw [List.filterMap_cons_none hheard]
    exact hd
  errors := by
    have hfailed : [c].countP Doing.isFailedUpload = 0 := by
      rw [List.countP_singleton, Doing.isFailedUpload, hreport]
      rfl
    rw [hfailed, hd, he]
    rfl

/-- A deed with a sender counts its failure after all that its sender counts. -/
theorem enter (hd : c.deed.isSending = true) (h : Tallied c.before cs t) :
    Tallied c.before (c :: cs) (counted c.report t) where
  decoder := by
    have hheard : c.heard = none := by
      refine Doing.heard_of_not_telemetry fun raw hraw => ?_
      rw [hraw] at hd
      cases hd
    rw [List.filterMap_cons_none hheard, counted_decoder]
    exact h.decoder
  errors := by
    have he := h.errors
    rw [counted_decoder, counted_errorCount, List.countP_cons]
    omega

end Tallied

/-- Telemetry is counted once, as a packet, as a refusal, or not at all. -/
theorem receive_tallied (raw : Value) (s : Session) :
    Tallied s [⟨.telemetry raw, s⟩] ((receive raw).run s).2 := by
  have hreport : (⟨.telemetry raw, s⟩ : Doing).report = none := rfl
  have hfailed : [(⟨.telemetry raw, s⟩ : Doing)].countP Doing.isFailedUpload = 0 := rfl
  cases hparse : ((s.decoder.parse raw).run s.journal).1 with
  | error f =>
      obtain ⟨j, hreceive⟩ := run_receive_error hparse
      rw [hreceive]
      refine Tallied.single (c := ⟨.telemetry raw, s⟩) rfl rfl ?_ hreport
      rw [Doing.heard, Doing.outcome, Deed.run, result_bind_pure, hreceive]
      rfl
  | ok r =>
      obtain ⟨d, p⟩ := r
      obtain ⟨rfl, rfl⟩ := Decoder.parse_ok hparse
      obtain ⟨j, hreceive⟩ := run_receive_ok hparse
      have hheard : (⟨.telemetry raw, s⟩ : Doing).heard = some raw := by
        rw [Doing.heard, Doing.outcome, Deed.run, result_bind_pure, hreceive]
        rfl
      rw [hreceive]
      constructor
      · rw [List.filterMap_cons_some hheard]
        rfl
      · dsimp only
        rw [hfailed, Decoder.errors_next]
        omega

/-- Apart from telemetry, what does not send leaves the decoder and the count of errors alone. -/
theorem run_uncounted {d : Deed} (hd : d.isSending = false) (hraw : ∀ raw, d ≠ .telemetry raw)
    (s : Session) :
    (d.run.run s).2.decoder = s.decoder ∧ (d.run.run s).2.errorCount = s.errorCount := by
  let Kept (t : Session) : Prop := t.decoder = s.decoder ∧ t.errorCount = s.errorCount
  have hline {α : Type} (x : Op Line α) : (x.on linePart).Preserves Kept :=
    preserves_on x fun _ _ h => h
  have hstart : Kept s := ⟨rfl, rfl⟩
  have hquiet {d : Deed} (hq : d.isQuiet = true) : Kept (d.run.run s).2 := by
    have h := Deed.run_calm (n := 0) d hq s (.refl s)
    exact ⟨h.decoder, h.errors⟩
  cases d with
  | telemetry raw => exact absurd rfl (hraw raw)
  | respond r => exact (hline _).bind (fun _ => preserves_pure _) s hstart
  | close => exact (hline _).bind (fun _ => preserves_pure _) s hstart
  | reopen => exact (hline _).bind (fun _ => preserves_pure _) s hstart
  | stop =>
      have hsay (level : Log.Level) (text : String) : (say .uplink level text).Preserves Kept :=
        preserves_on _ fun _ _ h => h
      refine Preserves.bind ?_ (fun _ => preserves_pure _) s hstart
      refine preserves_state.bind fun _ => preserves_ite (hsay _ _) ?_
      exact (hsay _ _).bind fun _ => Preserves.bind (preserves_update fun _ h => h) fun _ =>
        (hline _).bind fun _ => hsay _ _
  | query | ask | abandonedQuery | askWith | askUnderSettings | sendUpload | upload => cases hd
  | _ => exact hquiet rfl

/-- Counting keeps pace with all that is done. -/
theorem tallied_tracks : Deed.Tracks Tallied where
  refl := .refl
  append := .append
  note _ _ h := ⟨h.decoder, h.errors⟩
  transmit _ h := ⟨h.decoder, h.errors⟩
  before hu h := ⟨hu.decoder ▸ h.decoder, hu.decoder ▸ hu.errors ▸ h.errors⟩
  behind h hu := h.congr hu.decoder hu.errors
  alone c hc := by
    rcases c with ⟨d, s⟩
    by_cases hraw : ∃ raw, d = .telemetry raw
    · obtain ⟨raw, rfl⟩ := hraw
      rw [Doing.after, Deed.run, state_bind_pure]
      exact receive_tallied raw s
    · have hne (raw : Value) : d ≠ .telemetry raw := fun h => hraw ⟨raw, h⟩
      obtain ⟨hdecoder, herrors⟩ := run_uncounted hc hne s
      exact .single hdecoder herrors (Doing.heard_of_not_telemetry hne)
        (Doing.report_of_not_sending hc)
  enter := .enter

end Session

open Session Telemetry

/-- In every run of deeds in a new session, whatever is done inside of senders, and whether deeds
fail or not:

* the decoder has parsed or refused just the raw packets that are set, of those at which it did
  not stop,
* its last packet is the last one among them, and its last marker the last one that is not empty,
* the errors of the session are those of the decoder and the uploads that the session took and
  whose agents reported a failure. -/
theorem Deed.counters_balance (ds : List Deed) (place : Nat) (s : Session)
    (hdecoder : s.decoder = {}) (herrors : s.errorCount = 0) :
    let cs := Deed.doings ds place s
    let raws := cs.filterMap Doing.heard
    let packets := raws.filterMap packetOf
    let t := ((Deed.runAll ds place).run s).2
    t.decoder.packetsParsed + t.decoder.errorCount = raws.countP Value.isSet ∧
    t.decoder.packetsParsed = packets.length ∧
    t.decoder.lastPacket = packets.getLast? ∧
    t.decoder.lastMarker = (packets.filterMap Packet.marker?).getLast? ∧
    t.errorCount = t.decoder.errorCount + cs.countP Doing.isFailedUpload := by
  intro cs raws packets t
  obtain ⟨hd, he⟩ := Deed.doings_tracked tallied_tracks ds place s
  obtain ⟨hseen, hparsed, hpacket, hmarker⟩ := s.decoder.followAll_spec raws
  rw [← hd, hdecoder] at hseen hparsed hpacket hmarker
  rw [herrors, hdecoder] at he
  refine ⟨?_, ?_, ?_, ?_, ?_⟩
  · rw [hseen]
    exact Nat.zero_add _
  · rw [hparsed]
    exact Nat.zero_add _
  · rw [hpacket]
    exact Option.or_none
  · rw [hmarker]
    exact Option.or_none
  · rw [Nat.zero_add] at he
    exact he

/-- A packet with a marker, an upload that fails while three texts come in, and a mistake. -/
def variedDeeds : List Deed :=
  [.telemetry (.text "\x7b\"Marker\":\"m\"\x7d"),
    .upload "F-16" [.telemetry (.text "nonsense"), .telemetry (.text "\x7b\x7d"),
      .telemetry (.text "")] (.gives (.bool false)),
    .telemetry (.int 1)]

theorem Deed.counters_balance_varied :
    (keyed "ENT").decoder = {} ∧ (keyed "ENT").errorCount = 0 ∧
    let t := ((Deed.runAll variedDeeds 0).run (keyed "ENT")).2
    t.decoder.packetsParsed = 2 ∧ t.decoder.packetsParsed + t.decoder.errorCount = 3 ∧
    t.decoder.lastPacket = some {} ∧ t.decoder.lastMarker = some "m" ∧
    t.errorCount = t.decoder.errorCount + 1 := by
  have h := Deed.counters_balance variedDeeds 0 (keyed "ENT") rfl rfl
  obtain ⟨hseen, hparsed, hpacket, hmarker, herrors⟩ := h
  have hheard : (Deed.doings variedDeeds 0 (keyed "ENT")).filterMap Doing.heard =
      [.text "\x7b\"Marker\":\"m\"\x7d", .text "nonsense", .text "\x7b\x7d", .text ""] := by
    decide +kernel
  have hpackets : [Value.text "\x7b\"Marker\":\"m\"\x7d", .text "nonsense", .text "\x7b\x7d",
      .text ""].filterMap packetOf = [{ marker := some "m" }, {}] := by decide +kernel
  have hfailed : (Deed.doings variedDeeds 0 (keyed "ENT")).countP Doing.isFailedUpload = 1 := by
    decide +kernel
  rw [hheard] at hseen hparsed hpacket hmarker
  rw [hpackets] at hparsed hpacket hmarker
  rw [hfailed] at herrors
  exact ⟨rfl, rfl, hparsed, hseen, hpacket, hmarker, herrors⟩

end Cockpit
