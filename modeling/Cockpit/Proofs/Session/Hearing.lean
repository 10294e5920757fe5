import Cockpit.Proofs.Bridge.Ledger
import Cockpit.Proofs.Telemetry.Verdicts

/-!
# A query and the telemetry that it hears

While the payload of a query is on the way, telemetry comes in text by text.  A text can be
refused, hold a packet without an answer, or hold an answer.

`Session.Hears` says what a session has made of some texts.  Its bridge has heard the answers
in them, and its decoder and the session itself have counted the refusals.  One text is heard
by `Session.receive_hears`, and texts one after another by induction (`Session.feed_hears`).
On the bridge the first answer settles the query and the others are stray
(`Bridge.hearAll_of_held`).

`Deed.query_hears_first` puts these together with what a query call does before its sender
begins and after it has ended.  The session is ready for the next query again.
-/

namespace Cockpit

open Op Bridge

namespace Json

/-- A text that is no longer than nesting may be deep is within all limits. -/
theorem modest_of_length_le {cs : List Char} (h : cs.length ≤ depthLimit) : Modest cs where
  digits := by
    rintro n ⟨ds, hinfix, rfl, -⟩
    have hle : ds.length ≤ depthLimit := Nat.le_trans hinfix.length_le h
    exact Nat.le_trans hle (by decide)
  brackets := Nat.le_trans List.countP_le_length h

end Json

/-! ## What a text holds -/

namespace Telemetry

/-- The packet that a text of permitted length holds, if it holds one. -/
def packetIn (text : String) : Option Packet :=
  if text.length ≤ lengthLimit then
    match Json.read text with
    | .ok (.object es) => some (.ofEntries es)
    | _ => none
  else none

/-- The answer of a packet: its response if that is not empty. -/
def Packet.answer? (p : Packet) : Option String := p.response.filter (· != "")

/-- The answer that a text holds. -/
def answerIn (text : String) : Option String := (packetIn text).bind Packet.answer?

/-- Whether a text is to be refused. -/
def isRefused (text : String) : Bool := text != "" && (packetIn text).isNone

/-- No decoder stops at a text. -/
def Decodable (text : String) : Prop :=
  ∀ (t : Decoder) (j : Log.Journal), ∃ r, ((t.parse (.text text)).run j).1 = .ok r

variable {text a : String} {es : Entries} {t : Decoder} {j : Log.Journal}

theorem filterMap_answerIn (text : String) :
    [text].filterMap answerIn = (answerIn text).toList := by
  cases h : answerIn text with
  | none => rw [List.filterMap_cons_none h]; rfl
  | some a => rw [List.filterMap_cons_some h]; rfl

theorem packetIn_of_isPacket (h : Decoder.IsPacket text es) :
    packetIn text = some (.ofEntries es) := by
  rw [packetIn, if_pos h.1, h.2]

theorem packetIn_eq_some {p : Packet} (h : packetIn text = some p) :
    ∃ es, Decoder.IsPacket text es ∧ p = .ofEntries es := by
  rw [packetIn] at h
  split at h
  · rename_i hlen
    split at h
    · rename_i es hr
      exact ⟨es, ⟨hlen, hr⟩, (Option.some.inj h).symm⟩
    · cases h
  · cases h

theorem Packet.fieldOf_eq_some_iff {key : String} : fieldOf es key = some a ↔
    ∃ v, es.get? key = some v ∧ v ≠ .null ∧ v.toText = a := by
  rw [fieldOf]
  cases es.get? key with
  | none => simp
  | some v => cases v <;> simp

/-- A text holds an answer exactly if it is an object of permitted length whose response is
there, is not null, and is not empty as a text. -/
theorem answerIn_eq_some_iff : answerIn text = some a ↔ text.length ≤ lengthLimit ∧
    ∃ (es : Entries) (v : Value), Json.read text = .ok (.object es) ∧
      es.get? "Response" = some v ∧ v ≠ .null ∧ v.toText = a ∧ a ≠ "" := by
  rw [answerIn, Option.bind_eq_some_iff]
  constructor
  · rintro ⟨p, hp, ha⟩
    obtain ⟨es, ⟨hlen, hr⟩, rfl⟩ := packetIn_eq_some hp
    obtain ⟨hfield, hne⟩ := Option.filter_eq_some_iff.mp ha
    obtain ⟨v, hv, hnull, rfl⟩ := Packet.fieldOf_eq_some_iff.mp hfield
    exact ⟨hlen, es, v, hr, hv, hnull, rfl, bne_iff_ne.mp hne⟩
  · rintro ⟨hlen, es, v, hr, hv, hnull, rfl, hne⟩
    refine ⟨_, packetIn_of_isPacket ⟨hlen, hr⟩, ?_⟩
    exact Option.filter_eq_some_iff.mpr
      ⟨Packet.fieldOf_eq_some_iff.mpr ⟨v, hv, hnull, rfl⟩, bne_iff_ne.mpr hne⟩

/-- No decoder stops at a text within the limits of the JSON reader. -/
theorem decodable_of_modest (hm : Json.Modest text.toList) : Decodable text := by
  intro t j
  have hsettles : t.Settles text ((t.parse (.text text)).run j).1 :=
    Decoder.parse_settles fun _ _ hr => hm.isSyntax hr
  cases hr : ((t.parse (.text text)).run j).1 with
  | error f =>
      rw [hr] at hsettles
      exact False.elim hsettles
  | ok r => exact ⟨r, rfl⟩

/-- A decoder that does not stop at a text gives the packet that the text holds, and refuses it if
it holds none and is not empty. -/
theorem Decoder.parse_text_ok {t' : Decoder} {p : Option Packet}
    (h : ((t.parse (.text text)).run j).1 = .ok (t', p)) :
    p = packetIn text ∧ t' = match packetIn text with
      | some p => t.accept p
      | none => if text != "" then t.refuse else t := by
  have hsettles : t.Settles text ((t.parse (.text text)).run j).1 := by
    refine Decoder.parse_settles fun hlen f hf => ?_
    cases hs : f.isSyntax with
    | true => rfl
    | false =>
        obtain ⟨e, he⟩ := Decoder.parse_stops (t := t) (j := j) hlen hf hs
        cases he.symm.trans h
  rw [h] at hsettles
  rcases hsettles with ⟨rfl, rfl, rfl⟩ | ⟨es, hes, rfl, rfl⟩ | ⟨hne, hnone, rfl, rfl⟩
  · exact ⟨rfl, rfl⟩
  · rw [packetIn_of_isPacket hes]
    exact ⟨rfl, rfl⟩
  · have hp : packetIn text = none := by
      cases hp : packetIn text with
      | none => rfl
      | some p =>
          obtain ⟨es, hes, -⟩ := packetIn_eq_some hp
          exact absurd ⟨es, hes⟩ hnone
    rw [hp]
    exact ⟨rfl, (if_pos (bne_iff_ne.mpr hne)).symm⟩

/-- So does every decoder with a text at which none stops. -/
theorem Decodable.parse (h : Decodable text) (t : Decoder) (j : Log.Journal) :
    ∃ t', ((t.parse (.text text)).run j).1 = .ok (t', packetIn text) ∧
      t'.errorCount = t.errorCount + if isRefused text then 1 else 0 := by
  obtain ⟨⟨t', p⟩, hr⟩ := h t j
  obtain ⟨rfl, rfl⟩ := Decoder.parse_text_ok hr
  refine ⟨_, hr, ?_⟩
  rw [isRefused]
  cases packetIn text with
  | some p =>
      rw [Option.isNone_some, Bool.and_false]
      rfl
  | none =>
      rw [Option.isNone_none, Bool.and_true]
      dsimp only
      split
      · rfl
      · rfl

end Telemetry

/-! ## What a bridge hears -/

namespace Bridge

/-- The bridge after an answer came. -/
def hear (b : Bridge) (a : String) : Bridge :=
  match b.slot with
  | some t => b.settle t (.answered (.text a))
  | none => b.countStray

/-- The bridge after some answers came one after another. -/
def hearAll (b : Bridge) (answers : List String) : Bridge := answers.foldl hear b

variable {b : Bridge} {t : Ticket}

theorem hear_of_free (h : b.slot = none) (a : String) : b.hear a = b.countStray := by
  rw [hear, h]

theorem hear_of_held (h : b.slot = some t) (a : String) :
    b.hear a = b.settle t (.answered (.text a)) := by
  rw [hear, h]

/-- Without a query that waits every answer is a stray one. -/
theorem hearAll_of_free (h : b.slot = none) (answers : List String) :
    b.hearAll answers = { b with strayResponses := b.strayResponses + answers.length } := by
  induction answers generalizing b with
  | nil => rfl
  | cons a answers ih =>
      have hnext : b.countStray.slot = none := h
      rw [hearAll, List.foldl_cons, hear_of_free h, ← hearAll, ih hnext, List.length_cons,
        Nat.add_comm answers.length 1, ← Nat.add_assoc]
      rfl

/-- The first answer settles the query that waits, and the others are stray. -/
theorem hearAll_of_held (h : b.slot = some t) (a : String) (answers : List String) :
    b.hearAll (a :: answers) = { b.settle t (.answered (.text a)) with
      strayResponses := b.strayResponses + answers.length } := by
  rw [hearAll, List.foldl_cons, hear_of_held h, ← hearAll, hearAll_of_free (slot_settle _ _ b)]
  rfl

/-- Answers leave the bridge open or closed as it was, and the slot to its query or to nobody. -/
theorem hearAll_keeps (h : b.slot = some t) (answers : List String) :
    (b.hearAll answers).closed = b.closed ∧
      ((b.hearAll answers).slot = some t ∨ (b.hearAll answers).slot = none) := by
  cases answers with
  | nil => exact ⟨rfl, Or.inl h⟩
  | cons a answers =>
      rw [hearAll_of_held h]
      exact ⟨rfl, Or.inr rfl⟩

/-- What becomes of a query while some answers come. -/
def fateAmong : List String → Fate
  | [] => .pending
  | a :: _ => .answered (.text a)

/-- A query that just took the slot is answered by the first answer, and every later one is
stray. -/
theorem hearAll_take (b : Bridge) (answers : List String) :
    (b.take.hearAll answers).fate b.fates.length = fateAmong answers ∧
      (b.take.hearAll answers).counts =
        b.counts + { strayResponses := answers.tail.length } := by
  cases answers with
  | nil => exact ⟨fate_take_self b, rfl⟩
  | cons a answers =>
      have hlt : b.fates.length < b.take.fates.length := by
        rw [length_take]
        exact Nat.lt_succ_self _
      rw [hearAll_of_held (slot_take b)]
      exact ⟨fate_settle_self hlt _, rfl⟩

end Bridge

namespace Line

/-- The response of a packet is heard if it is an answer. -/
theorem run_answer_response (p : Telemetry.Packet) (l : Line) :
    ∃ taken j, (answer (Session.responseOf p)).run l =
      (.ok taken, ⟨l.bridge.hearAll p.answer?.toList, j⟩) := by
  rw [Session.responseOf, Telemetry.Packet.answer?]
  cases p.response with
  | none => exact ⟨_, _, rfl⟩
  | some r =>
      by_cases hr : r = ""
      · subst hr
        exact ⟨_, _, rfl⟩
      · have hset : (Value.text r).isSet = true := bne_iff_ne.mpr hr
        have hfilter : (some r).filter (· != "") = some r :=
          Option.filter_eq_some_iff.mpr ⟨rfl, hset⟩
        have hhear : l.bridge.hearAll [r] = l.bridge.hear r := rfl
        rw [answer, hset, hfilter, Option.toList_some, hhear, hear]
        dsimp only
        rw [if_neg (by decide), run_state_bind]
        cases l.bridge.slot with
        | some t => exact ⟨_, _, rfl⟩
        | none => exact ⟨_, _, rfl⟩

/-- A query that nothing answers times out if a clock can wait as long as it waits. -/
theorem conclusion_pending {wait : Value} (h : canWait wait = true) :
    conclusion .pending wait = (.timedOut, .ok .null) := by
  have hregular := isRegular_conclusion h .pending
  rw [conclusion] at hregular ⊢
  cases hv : waitInVain wait with
  | error f =>
      rw [hv] at hregular
      cases hregular
  | ok _ =>
      rw [hv] at hregular
      cases hd : wait.toDouble with
      | error f =>
          rw [hd] at hregular
          cases hregular
      | ok d => rfl

end Line

namespace Session

open Telemetry

variable {s u v : Session} {texts texts' : List String} {text : String}

/-- What a session has become after it heard some texts. -/
structure Hears (s : Session) (texts : List String) (u : Session) : Prop where
  bridge : u.bridge = s.bridge.hearAll (texts.filterMap answerIn)
  errors : u.errorCount = s.errorCount + texts.countP isRefused
  refusals : u.decoder.errorCount = s.decoder.errorCount + texts.countP isRefused
  running : u.running = s.running

namespace Hears

/-- A session that only logs or sends hears nothing. -/
theorem nil (hb : u.bridge = s.bridge) (he : u.errorCount = s.errorCount)
    (hd : u.decoder = s.decoder) (hr : u.running = s.running) : Hears s [] u where
  bridge := hb
  errors := he
  refusals := by rw [hd]; rfl
  running := hr

theorem append (h : Hears s texts u) (h' : Hears u texts' v) : Hears s (texts ++ texts') v where
  bridge := by
    rw [h'.bridge, h.bridge, hearAll, hearAll, hearAll, List.filterMap_append, List.foldl_append]
  errors := by rw [h'.errors, h.errors, List.countP_append, Nat.add_assoc]
  refusals := by rw [h'.refusals, h.refusals, List.countP_append, Nat.add_assoc]
  running := h'.running.trans h.running

end Hears

/-- What a raw packet does to a session besides its journal if the decoder does not stop at it: a
refusal is counted and an answer is heard. -/
theorem run_receive_ok {raw : Value} {d : Decoder} {p : Option Packet} {s : Session}
    (h : ((s.decoder.parse raw).run s.journal).1 = .ok (d, p)) :
    ∃ j, (receive raw).run s = (.ok p, { s with
      journal := j
      decoder := d
      bridge := s.bridge.hearAll (p.bind Packet.answer?).toList
      errorCount := s.errorCount + if raw.isSet && p.isNone then 1 else 0 }) := by
  obtain ⟨j, hrun⟩ : ∃ j,
      ((Workshop.logged (s.decoder.parse raw)).on workshopPart).run s =
        (.ok (d, p), { s with journal := j }) := ⟨_, Prod.ext h rfl⟩
  rw [receive, run_state_bind, run_bind_ok hrun]
  dsimp only
  rw [run_update_bind]
  cases p with
  | none =>
      dsimp only
      rw [Option.isNone_none, Bool.and_true]
      cases raw.isSet with
      | true => exact ⟨_, rfl⟩
      | false => exact ⟨_, rfl⟩
  | some p =>
      obtain ⟨taken, j', hanswer⟩ := Line.run_answer_response p ⟨s.bridge, j⟩
      have hrun' : (answer (responseOf p)).run { s with journal := j, decoder := d } =
          (.ok taken, { s with
            journal := j'
            decoder := d
            bridge := s.bridge.hearAll p.answer?.toList }) := by
        rw [answer, run_on]
        exact congrArg (fun r => (r.1, linePart.set r.2 { s with journal := j, decoder := d }))
          hanswer
      dsimp only
      rw [run_bind_ok hrun', Option.isNone_some, Bool.and_false]
      exact ⟨_, rfl⟩

/-- A raw packet at which the decoder stops does nothing to a session besides its journal. -/
theorem run_receive_error {raw : Value} {f : Fault} {s : Session}
    (h : ((s.decoder.parse raw).run s.journal).1 = .error f) :
    ∃ j, (receive raw).run s = (.error f, { s with journal := j }) := by
  obtain ⟨j, hrun⟩ : ∃ j, ((Workshop.logged (s.decoder.parse raw)).on workshopPart).run s =
      (.error f, { s with journal := j }) := ⟨_, Prod.ext h rfl⟩
  rw [receive, run_state_bind, run_bind_error hrun]
  exact ⟨j, rfl⟩

/-- A text at which no decoder stops is heard. -/
theorem receive_hears (h : Decodable text) (s : Session) :
    Hears s [text] ((receive (.text text)).run s).2 := by
  obtain ⟨d, hparse, hcount⟩ := h.parse s.decoder s.journal
  obtain ⟨j, hrun⟩ := run_receive_ok hparse
  have hone : [text].countP isRefused = if isRefused text then 1 else 0 := List.countP_singleton
  rw [hrun]
  constructor
  · rw [filterMap_answerIn]
    rfl
  · rw [hone]
    rfl
  · rw [hone]
    exact hcount
  · rfl

end Session

/-! ## A feed -/

/-- Telemetry that arrives text by text. -/
def Deed.feed (texts : List String) : List Deed := texts.map fun text => .telemetry (.text text)

namespace Session

open Telemetry

variable {s u v : Session} {texts : List String} {stream : Stream} {payload : String}

theorem note_hears (place : Nat) (r : Except Fault Answer) (s : Session) :
    Hears s [] (note place r s) := .nil rfl rfl rfl rfl

/-- A feed is heard text by text. -/
theorem feed_hears : ∀ (texts : List String), (∀ text ∈ texts, Decodable text) →
    ∀ (place : Nat) (s : Session),
      Hears s texts ((Deed.runAll (Deed.feed texts) place).run s).2
  | [], _, _, _ => .nil rfl rfl rfl rfl
  | text :: texts, h, place, s => by
      have hfirst := receive_hears (h text List.mem_cons_self) s
      have hrun : ((Deed.telemetry (.text text)).run.run s).2 =
          ((receive (.text text)).run s).2 := by
        rw [Deed.run, state_bind_pure]
      rw [← hrun] at hfirst
      have hrest := feed_hears texts (fun x hx => h x (List.mem_cons_of_mem text hx)) place
        (note place ((Deed.telemetry (.text text)).run.run s).1
          ((Deed.telemetry (.text text)).run.run s).2)
      exact (hfirst.append (note_hears place _ _)).append hrest

theorem prepare_hears (stream : Stream) (s : Session) :
    Hears s [] ((prepare stream).run s).2 := by
  rw [prepare, run_liftM_bind]
  cases stream.framed with
  | error f => exact .nil rfl rfl rfl rfl
  | ok payload =>
      dsimp only
      rw [run_state_bind]
      by_cases hl : s.bridge.logStreams.isSet = true
      · simp only [hl, if_true]
        exact .nil rfl rfl rfl rfl
      · simp only [hl]
        exact .nil rfl rfl rfl rfl

/-- The sender of a query that succeeds once a feed has been heard. -/
theorem sender_hears (h : ∀ text ∈ texts, Decodable text) (payload : String) (s : Session) :
    ∃ u, (sender (Deed.runAll (Deed.feed texts)) (.gives (.bool true)) payload).run s =
      (.ok (.bool true), u) ∧ Hears s texts u := by
  have hfeed := feed_hears texts h s.transmissions.length (transmit payload s)
  have hends := runAll_ends (Deed.feed texts) s.transmissions.length (transmit payload s)
  have hstart : Hears s [] (transmit payload s) := .nil rfl rfl rfl rfl
  refine ⟨_, ?_, hstart.append hfeed⟩
  rw [sender, run_state_bind, run_update_bind]
  exact run_bind_ok (Prod.ext hends rfl)

/-! ## A query and a feed -/

/-- A session that can make a query: it runs, and its bridge is open and idle. -/
structure Ready (s : Session) : Prop where
  running : s.running = true
  isOpen : s.bridge.closed = false
  free : s.bridge.slot = none

/-- A call whose payload was delivered concludes and gives its ticket back. -/
theorem run_complete_delivered {send : Sender} {yes : Value} (wait : Value) (t : Ticket)
    (hp : (prepare stream).run s = (.ok payload, v))
    (hs : (send payload).run v = (.ok yes, u)) (hyes : yes.isSet = true) :
    (complete send stream wait t).run s =
      (((Line.conclude t wait).run (linePart.get u)).1,
        giveBack t ((Line.conclude t wait).run (linePart.get u)).2 u) := by
  have hdeliver : (deliver send payload .queryBridge "query").run v = (.ok true, u) := by
    rw [deliver, run_recover, run_bind_ok hs, run_pure, hyes]
  have hquery : (deliverQuery send stream).run s = (.ok true, u) := by
    rw [deliverQuery_eq, run_bind_ok hp, hdeliver]
  rw [complete, run_ensure, run_bind_ok hquery]
  rfl

/-- A query in a session that is ready hears a feed with its slot taken, and concludes. -/
theorem run_ask_hears (hs : Ready s) (hq : stream.queries = 1) (hw : stream.framed = .ok payload)
    (h : ∀ text ∈ texts, Decodable text) (wait : Value) :
    ∃ u, Hears { s with bridge := s.bridge.take } texts u ∧
      (ask (sender (Deed.runAll (Deed.feed texts)) (.gives (.bool true))) stream wait).run s =
        (((Line.conclude s.bridge.fates.length (waitOf wait s.bridge)).run (linePart.get u)).1,
          giveBack s.bridge.fates.length
            ((Line.conclude s.bridge.fates.length (waitOf wait s.bridge)).run
              (linePart.get u)).2 u) := by
  have hprepare := prepare_hears stream { s with bridge := s.bridge.take }
  have hresult := result_prepare stream { s with bridge := s.bridge.take }
  rcases hp : (prepare stream).run { s with bridge := s.bridge.take } with ⟨o, v⟩
  rw [hp] at hprepare hresult
  obtain rfl : o = .ok payload := hresult.trans hw
  obtain ⟨u, hsend, hears⟩ := sender_hears h payload v
  refine ⟨u, hprepare.append hears, ?_⟩
  rw [run_ask, reserve_free hq hs.isOpen hs.free]
  exact run_complete_delivered _ _ hp hsend rfl

/-- A query in a session that is ready concludes by the answers of the feed that it hears.
The later answers are stray, and the session has counted the refusals and is ready again. -/
theorem run_ask_feed (hs : Ready s) (hq : stream.queries = 1) (hw : stream.framed = .ok payload)
    (h : ∀ text ∈ texts, Decodable text) (wait : Value) :
    ∃ u, (ask (sender (Deed.runAll (Deed.feed texts)) (.gives (.bool true))) stream wait).run s =
        ((Line.conclusion (fateAmong (texts.filterMap answerIn)) (waitOf wait s.bridge)).2, u) ∧
      u.bridge.counts = s.bridge.counts +
        { strayResponses := (texts.filterMap answerIn).tail.length } +
        (Line.conclusion (fateAmong (texts.filterMap answerIn)) (waitOf wait s.bridge)).1.entry ∧
      u.errorCount = s.errorCount + texts.countP isRefused ∧
      u.decoder.errorCount = s.decoder.errorCount + texts.countP isRefused ∧ Ready u := by
  obtain ⟨u, hears, hrun⟩ := run_ask_hears hs hq hw h wait
  have hbridge : (linePart.get u).bridge =
      s.bridge.take.hearAll (texts.filterMap answerIn) := hears.bridge
  obtain ⟨hresult, hcounts⟩ :=
    Line.run_conclude s.bridge.fates.length (waitOf wait s.bridge) (linePart.get u)
  have hfinish : Finish _ (.ok (.bool true)) _ _ _ :=
    Line.conclude_finish s.bridge.fates.length (waitOf wait s.bridge) (linePart.get u) rfl
  obtain ⟨hfate, hstrays⟩ := hearAll_take s.bridge (texts.filterMap answerIn)
  obtain ⟨hclosed, hslot⟩ := hearAll_keeps (slot_take s.bridge) (texts.filterMap answerIn)
  rw [hbridge, hfate] at hresult hcounts
  rw [hstrays] at hcounts
  rw [hresult] at hrun
  refine ⟨_, hrun, ?_, hears.errors, hears.refusals, hears.running.trans hs.running, ?_, ?_⟩
  · rw [counts_giveBack, hcounts]
  · have hopen : (linePart.get u).bridge.closed = false := by
      rw [hbridge, hclosed]
      exact hs.isOpen
    exact (closed_release _ _).trans (hfinish.closed_eq.trans hopen)
  · refine slot_release ?_
    rw [hfinish.slot_eq, hbridge]
    exact hslot

end Session

open Session Telemetry

/-- In every session that is ready, a query whose sender hears any texts at which no decoder
stops, and then succeeds:

* returns the answer of the first text that holds one, which counts as received, and every
  later text that holds an answer counts as one stray response,
* returns nothing and counts as timed out if no text holds an answer and a clock can wait as
  long as the query waits,
* counts every refused text once as an error of the session and of its decoder, and leaves a
  session that is ready. -/
theorem Deed.query_hears_first (fn args wait : Value) (xs : List String) (texts : List String)
    (s : Session) (hs : Ready s) (hargs : args.arguments = .ok xs)
    (htexts : ∀ text ∈ texts, Decodable text) :
    ∃ r u, (Deed.query fn args wait (Deed.feed texts) (.gives (.bool true))).run.run s = (r, u) ∧
      (∀ before text after a, texts = before ++ text :: after →
        (∀ x ∈ before, answerIn x = none) → answerIn text = some a →
          r = .ok (.value (.text a)) ∧ u.bridge.counts = s.bridge.counts +
            { queriesSent := 1, responsesReceived := 1,
              strayResponses := after.countP fun x => (answerIn x).isSome }) ∧
      ((∀ x ∈ texts, answerIn x = none) → Line.canWait (waitOf wait s.bridge) = true →
        r = .ok (.value .null) ∧
          u.bridge.counts = s.bridge.counts + { queriesSent := 1, timeouts := 1 }) ∧
      u.errorCount = s.errorCount + texts.countP isRefused ∧
      u.decoder.errorCount = s.decoder.errorCount + texts.countP isRefused ∧ Ready u := by
  obtain ⟨payload, hw⟩ : ∃ payload, Stream.framed [.query fn xs] = .ok payload := ⟨_, rfl⟩
  obtain ⟨u, hrun, hcounts, herrors, hrefusals, hready⟩ := run_ask_feed hs rfl hw htexts wait
  have hquery : (Session.query (sender (Deed.runAll (Deed.feed texts)) (.gives (.bool true)))
      fn args wait).run s =
        ((Line.conclusion (fateAmong (texts.filterMap answerIn)) (waitOf wait s.bridge)).2, u) := by
    rw [Session.query, queryOf, hargs]
    exact hrun
  have hdeed : (Deed.query fn args wait (Deed.feed texts) (.gives (.bool true))).run.run s =
      ((Line.conclusion (fateAmong (texts.filterMap answerIn))
        (waitOf wait s.bridge)).2.map .value, u) := by
    rw [Deed.run]
    exact Prod.ext (by rw [result_bind_pure, hquery]) (by rw [state_bind_pure, hquery])
  refine ⟨_, u, hdeed, ?_, ?_, herrors, hrefusals, hready⟩
  · intro before text after a htext hbefore ha
    have hanswers : texts.filterMap answerIn = a :: after.filterMap answerIn := by
      rw [htext, List.filterMap_append, List.filterMap_eq_nil_iff.mpr hbefore, List.nil_append,
        List.filterMap_cons_some ha]
    rw [hanswers] at hcounts ⊢
    refine ⟨rfl, ?_⟩
    rw [hcounts, add_assoc, ← List.length_filterMap_eq_countP]
    rfl
  · intro hnone hwait
    have hanswers : texts.filterMap answerIn = [] := List.filterMap_eq_nil_iff.mpr hnone
    rw [hanswers, fateAmong, Line.conclusion_pending hwait] at hcounts ⊢
    refine ⟨rfl, ?_⟩
    rw [hcounts]
    rfl

/-- Nothing, a text that is no packet, a packet with a mark, one with an empty response, and two
with answers. -/
def mixedTexts : List String :=
  ["", "nonsense", "\x7b\"Marker\":\"m\"\x7d", "\x7b\"Response\":\"\"\x7d",
    "\x7b\"Response\":\"NAV\"\x7d", "\x7b\"Response\":7\x7d"]

theorem Deed.query_hears_first_mixed :
    Ready idleSession ∧ Value.arguments .null = .ok [] ∧ (∀ x ∈ mixedTexts, Decodable x) ∧
    ∃ r u, (Deed.query (.text "GetMode") .null .null (Deed.feed mixedTexts)
        (.gives (.bool true))).run.run idleSession = (r, u) ∧
      r = .ok (.value (.text "NAV")) ∧
      u.bridge.counts = { queriesSent := 1, responsesReceived := 1, strayResponses := 1 } ∧
      u.errorCount = 1 ∧ Ready u := by
  have hready : Ready idleSession := ⟨rfl, rfl, rfl⟩
  have htexts : ∀ x ∈ mixedTexts, Decodable x := by
    intro x hx
    have hlen : ∀ x ∈ mixedTexts, x.toList.length ≤ Json.depthLimit := by decide
    exact decodable_of_modest (Json.modest_of_length_le (hlen x hx))
  obtain ⟨r, u, hrun, hanswered, -, herrors, -, hu⟩ := Deed.query_hears_first (.text "GetMode")
    .null .null [] mixedTexts idleSession hready rfl htexts
  have hbefore : ∀ x ∈ mixedTexts.take 4, answerIn x = none := by decide +kernel
  have hlater : ["\x7b\"Response\":7\x7d"].countP (fun x => (answerIn x).isSome) = 1 := by
    decide +kernel
  have hrefused : mixedTexts.countP isRefused = 1 := by decide +kernel
  obtain ⟨hr, hcounts⟩ := hanswered (mixedTexts.take 4) "\x7b\"Response\":\"NAV\"\x7d"
    ["\x7b\"Response\":7\x7d"] "NAV" rfl hbefore rfl
  rw [hlater] at hcounts
  rw [hrefused] at herrors
  exact ⟨hready, rfl, htexts, r, u, hrun, hr, hcounts, herrors, hu⟩

/-- A session that runs and makes no query can fail to return nothing where nothing answers, if
the query waits longer than a clock can, and to return an answer, if its bridge is closed. -/
theorem Deed.query_unheard :
    (Ready idleSession ∧
      ((Deed.query (.text "GetMode") .null (.int 10000000000) (Deed.feed [])
        (.gives (.bool true))).run.run idleSession).1 = .error .overflow ∧
      ((Deed.query (.text "GetMode") .null (.int 10000000000) (Deed.feed [])
        (.gives (.bool true))).run.run idleSession).2.bridge.timeouts = 0) ∧
    ∃ s : Session, s.running = true ∧ s.bridge.slot = none ∧
      answerIn "\x7b\"Response\":\"NAV\"\x7d" = some "NAV" ∧
      ((Deed.query (.text "GetMode") .null .null (Deed.feed ["\x7b\"Response\":\"NAV\"\x7d"])
        (.gives (.bool true))).run.run s).1 = .ok (.value .null) := by
  refine ⟨⟨⟨rfl, rfl, rfl⟩, rfl, rfl⟩, ?_⟩
  exact ⟨{ idleSession with bridge := idleSession.bridge.close }, rfl, rfl, rfl, rfl⟩

end Cockpit
