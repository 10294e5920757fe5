import Cockpit.Proofs.Bridge.Slot
import Cockpit.Proofs.Builder.AllOrNothing
import Cockpit.Proofs.Op.Preserves

/-!
# What query builders submit

A query builder is built when its stream is empty, and then its stream is sent.  So it is the
stream that decides whether a call builds, and not whether a build was completed.

A `Submission` is one call of a query builder: what it found, how the build went if there was one,
the stream that it had then and what its sender was handed.  `Deed.submissions` are those of a run,
also those that a sender makes while another payload is on the way.

Among deeds that touch no stream but through calls of one builder, each submission finds the stream
that the one before left (`Chained`).  `Deed.submissions_built` says what follows.  Every payload is
the text of what the latest build left behind.  Was that build not completed, then it left commands,
and the calls after it do not build again but submit them.
-/

namespace Cockpit

open Op

/-! ## Deeds about one builder -/

mutual

/-- Whether a deed touches no stream but through queries of the builder of a name, and all that is
done meanwhile too. -/
def Deed.isAbout (n : String) : Deed → Bool
  | .query _ _ _ ds _ => Deed.areAbout n ds
  | .ask _ _ ds _ => Deed.areAbout n ds
  | .askWith (.named m) _ _ ds _ => m == n && Deed.areAbout n ds
  | .askUnderSettings (.named m) _ ds _ => m == n && Deed.areAbout n ds
  | .respond _ => true
  | .telemetry _ => true
  | .close => true
  | .reopen => true
  | .lineState => true
  | .agentStatus _ => true
  | .stop => true
  | .strictActions => true
  | .configure _ => true
  | .fail _ => true
  | _ => false
termination_by structural d => d

/-- Whether deeds are all about one builder. -/
def Deed.areAbout (n : String) : List Deed → Bool
  | [] => true
  | d :: ds => d.isAbout n && Deed.areAbout n ds
termination_by structural ds => ds

end

namespace Session

variable {ds : List Deed} {ending : Ending} {stream : Stream} {wait : Value} {id : BuilderId}
  {s t u : Session}

/-! ## What leaves the benches alone -/

/-- The names and the benches of a session. -/
def stock (s : Session) : List (String × BuilderId) × List Bench := (s.names, s.benches)

/-- Whether a session has the names and the benches of another one. -/
def Stocks (s t : Session) : Prop := t.stock = s.stock

theorem Stocks.builder (h : Stocks s t) (id : BuilderId) : t.builder id = s.builder id := by
  have hb : t.benches = s.benches := congrArg Prod.snd h
  rw [Workshop.builder, Workshop.builder, Workshop.bench, Workshop.bench, hb]

theorem Stocks.extends (h : Stocks s t) : Workshop.Extends s.toWorkshop t.toWorkshop where
  names := congrArg Prod.fst h
  grows := Nat.le_of_eq (congrArg (List.length ∘ Prod.snd) h.symm)
  programs i _ := by
    have hb : t.benches = s.benches := congrArg Prod.snd h
    rw [Workshop.bench, Workshop.bench, hb]

theorem line_stocks {α : Type} (x : Op Line α) : (x.on linePart).Preserves (Stocks s) :=
  preserves_on x fun _ _ h => h

theorem config_stocks {α : Type} (x : Op Config α) : (x.on configPart).Preserves (Stocks s) :=
  preserves_on x fun _ _ h => h

theorem logged_stocks {α : Type} (x : Op Log.Journal α) :
    ((Workshop.logged x).on workshopPart).Preserves (Stocks s) := fun _ h => h

theorem say_stocks (source : Log.Source) (level : Log.Level) (text : String) :
    (say source level text).Preserves (Stocks s) := logged_stocks _

theorem prepare_stocks (stream : Stream) : (prepare stream).Preserves (Stocks s) := by
  refine (preserves_liftM _).bind fun payload => preserves_state.bind fun t => ?_
  exact preserves_ite ((line_stocks _).bind fun _ => preserves_pure _) (preserves_pure _)

theorem receive_stocks (raw : Value) : (receive raw).Preserves (Stocks s) := by
  refine preserves_state.bind fun t => (logged_stocks _).bind fun r => ?_
  refine Preserves.bind (preserves_update fun _ h => h) fun _ => ?_
  cases r.2 with
  | some p => exact (line_stocks _).bind fun _ => preserves_pure _
  | none =>
      refine preserves_ite ?_ (preserves_pure _)
      exact Preserves.bind (preserves_update fun _ h => h) fun _ => preserves_pure _

theorem stop_stocks : stop.Preserves (Stocks s) := by
  refine preserves_state.bind fun t => preserves_ite (say_stocks _ _ _) ?_
  refine (say_stocks _ _ _).bind fun _ => ?_
  refine Preserves.bind (preserves_update fun _ h => h) fun _ => ?_
  exact (line_stocks _).bind fun _ => say_stocks _ _ _

theorem findAgent_stocks (name : String) : (findAgent name).Preserves (Stocks s) := by
  refine preserves_state.bind fun t => ?_
  cases t.agents.lookup name with
  | none => exact preserves_stop _
  | some a => exact preserves_pure a

/-! ### Query calls -/

theorem reserve_stocks (stream : Stream) : (reserve stream).Preserves (Stocks s) :=
  preserves_ite (preserves_stop _) (line_stocks _)

/-- Delivering a payload leaves the benches as the sender leaves them. -/
theorem deliver_stocks (send : Sender) (payload : String) (source : Log.Source) (what : String)
    (s : Session) :
    Stocks ((send payload).run s).2 ((deliver send payload source what).run s).2 := by
  refine recover_keeps (bind_keeps rfl fun v t _ ht => ht) fun f => ?_
  exact (say_stocks _ _ _).bind fun _ => preserves_pure _

/-- A query that holds the slot leaves the benches as its sender leaves them. -/
theorem complete_stocks (send : Sender) (wait : Value) (t : Ticket) {payload : String}
    (hp : (prepare stream).run s = (.ok payload, u)) :
    Stocks ((send payload).run u).2 ((complete send stream wait t).run s).2 := by
  have hdeliver : (deliverQuery send stream).run s =
      (deliver send payload .queryBridge "query").run u := by
    rw [deliverQuery_eq]
    exact run_bind_ok hp
  have hsent := deliver_stocks send payload .queryBridge "query" u
  rw [← hdeliver] at hsent
  refine bind_keeps hsent fun sent v _ hv => ?_
  exact preserves_ite (line_stocks _) (line_stocks _) v hv

/-- A query whose stream cannot be written leaves the benches alone. -/
theorem complete_unsent_stocks (send : Sender) (wait : Value) (t : Ticket) {f : Fault}
    (hp : (prepare stream).run s = (.error f, u)) :
    Stocks s ((complete send stream wait t).run s).2 := by
  have hprepared := prepare_stocks stream s rfl
  have hdeliver : (deliverQuery send stream).run s = (.error f, u) := by
    rw [deliverQuery_eq]
    exact run_bind_error hp
  rw [hp] at hprepared
  rw [complete, run_ensure, run_bind_error hdeliver]
  exact hprepared

/-- A sender that was called began with the benches of the session and was handed the text of a
stream with one query.  The call leaves the benches as the deeds of its sender leave them. -/
theorem ask_stocks (wait : Value) {x : Sending} (h : handOver ds ending stream s = some x) :
    Stocks s x.start ∧ stream.queries = 1 ∧ stream.framed = .ok x.payload ∧
      Stocks ((Deed.runAll ds x.start.transmissions.length).run (transmit x.payload x.start)).2
        ((ask (sender (Deed.runAll ds) ending) stream wait).run s).2 := by
  have hone : stream.queries = 1 := by
    refine Decidable.not_not.mp fun hq => ?_
    have hrefused : (reserve stream).run s = (.error (.notOneQuery stream.queries), s) := by
      rw [reserve, if_pos hq]
      rfl
    rw [handOver, hrefused] at h
    cases h
  obtain ⟨hopen, hfree, v, hp, hx⟩ := handOver_eq_some h
  have hstart : x.start = v := congrArg Sending.start hx
  have hprepared := prepare_stocks stream { s with bridge := s.bridge.take } rfl
  have htext := result_prepare stream { s with bridge := s.bridge.take }
  rw [hp] at hprepared htext
  rw [hstart, run_ask, reserve_free hone hopen hfree]
  refine ⟨hprepared, hone, htext.symm, ?_⟩
  have hcomplete := complete_stocks (sender (Deed.runAll ds) ending) (waitOf wait s.bridge)
    s.bridge.fates.length hp
  rwa [run_sender] at hcomplete

/-- A query call that calls no sender leaves the benches alone. -/
theorem ask_unsent_stocks (wait : Value) (h : handOver ds ending stream s = none) :
    Stocks s ((ask (sender (Deed.runAll ds) ending) stream wait).run s).2 := by
  have hreserved := reserve_stocks stream s rfl
  rw [run_ask]
  rw [handOver] at h
  rcases hr : (reserve stream).run s with ⟨f | _ | t, u⟩
  · rw [hr] at hreserved
    exact hreserved
  · rw [hr] at hreserved
    exact hreserved
  · rw [hr] at hreserved h
    dsimp only at h ⊢
    rcases hp : (prepare stream).run u with ⟨f | payload, v⟩
    · exact (complete_unsent_stocks _ _ t hp).trans hreserved
    · rw [hp] at h
      cases h

end Session

/-! ## Submissions -/

/-- One call of a query builder that has a bridge. -/
structure Submission where
  builder : BuilderId
  before : Session
  /-- How its build went, if it was built. -/
  build : Option (Except Fault Unit)
  /-- Its stream after that. -/
  stream : Stream
  /-- What its sender was handed, if the sender was called. -/
  sending : Option Sending
  outcome : Except Fault Value

namespace Submission

/-- The stream that a call finds. -/
def found (c : Submission) : Stream := (c.before.builder c.builder).stream

/-- The submissions that are made while the payload of a call is on the way. -/
def within (during : Nat → Session → List Submission) : Option Sending → List Submission
  | some x => during x.start.transmissions.length (Session.transmit x.payload x.start)
  | none => []

/-- What a call does with the stream of its builder. -/
structure Sound (c : Submission) : Prop where
  /-- It builds if it finds no commands, and then the stream is what that left. -/
  builds : c.found = [] → ∃ r w, (Workshop.build c.builder .null).run c.before.toWorkshop = (r, w) ∧
    c.build = some r ∧ c.stream = (w.builder c.builder).stream
  /-- It leaves commands that it finds alone. -/
  keeps : c.found ≠ [] → c.build = none ∧ c.stream = c.found
  /-- It ends with the fault of its build and sends nothing then. -/
  fails : ∀ f, c.build = some (.error f) → c.outcome = .error f ∧ c.sending = none
  /-- What it sends is the text of the stream, which has one query. -/
  sends : ∀ x, c.sending = some x → c.stream.queries = 1 ∧ c.stream.framed = .ok x.payload

variable {c : Submission} {x : Sending}

/-- A call builds exactly if it finds no commands. -/
theorem Sound.builds_iff (h : c.Sound) : c.build.isSome ↔ c.found = [] := by
  constructor
  · intro hbuild
    refine Decidable.byContradiction fun hs => ?_
    rw [(h.keeps hs).1] at hbuild
    cases hbuild
  · intro hs
    obtain ⟨r, -, -, hbuild, -⟩ := h.builds hs
    rw [hbuild]
    rfl

/-- There are commands in what is sent. -/
theorem Sound.stream_ne_nil (h : c.Sound) (hx : c.sending = some x) : c.stream ≠ [] := by
  intro hs
  have hone := (h.sends x hx).1
  rw [hs] at hone
  cases hone

end Submission

namespace Session

/-- Builds a builder whose stream is empty. -/
def supply (id : BuilderId) : Op Session Unit := do
  let b ← (Workshop.read id fun b => b).on workshopPart
  if b.stream.isEmpty then (Workshop.build id .null).on workshopPart

/-- The session after a builder said how many commands it submits. -/
def announced (kind : BuilderKind) (length : Nat) (s : Session) : Session :=
  ((say .queryBuilder .debug s!"{kind.name} submitting {length} commands").run s).2

/-- Whether a builder has a query and a bridge to send it through. -/
def canAsk (b : Builder) : Bool := b.kind.asks && b.bridged

/-- A call of a query builder whose sender does some deeds. -/
def submissionOf (ds : List Deed) (ending : Ending) (id : BuilderId) (wait : Value)
    (s : Session) : Submission :=
  let r := (supply id).run s
  let stream := (r.2.builder id).stream
  { builder := id
    before := s
    build := if (s.builder id).stream.isEmpty then some r.1 else none
    stream
    sending := match r.1 with
      | .ok _ => handOver ds ending stream (announced (s.builder id).kind stream.length r.2)
      | .error _ => none
    outcome := ((askWith (sender (Deed.runAll ds) ending) id wait).run s).1 }

/-- The submissions of a call, given those meanwhile. -/
def submitting (during : Nat → Session → List Submission) (ds : List Deed) (ending : Ending)
    (id : BuilderId) (wait : Value) (s : Session) : List Submission :=
  if canAsk (s.builder id) then
    let c := submissionOf ds ending id wait s
    c :: Submission.within during c.sending
  else []

/-- The session in which the query of a builder runs under the settings. -/
def underSettings (id : BuilderId) (s : Session) : Session :=
  let s := ((connect id).run s).2
  { s with toWorkshop := s.toWorkshop.changeBuilder id fun b =>
      { b with strict := (s.builder id).strict || s.strictActions } }

end Session

open Session in
mutual

/-- The submissions that a deed makes. -/
def Deed.submissions : Deed → Session → List Submission
  | .query fn args _ ds e => fun s =>
    match queryOf fn args with
    | .error _ => []
    | .ok stream => Submission.within (Deed.submissionsOfAll ds) (handOver ds e stream s)
  | .ask stream _ ds e => fun s =>
    Submission.within (Deed.submissionsOfAll ds) (handOver ds e stream s)
  | .askWith t connected wait ds e => fun s =>
    (findBuilder t).follow s fun id s =>
      submitting (Deed.submissionsOfAll ds) ds e id wait
        (if connected then ((connect id).run s).2 else s)
  | .askUnderSettings t wait ds e => fun s =>
    (findBuilder t).follow s fun id s =>
      submitting (Deed.submissionsOfAll ds) ds e id wait (underSettings id s)
  | _ => fun _ => []
termination_by structural d => d

/-- The submissions that deeds one after another make. -/
def Deed.submissionsOfAll : List Deed → Nat → Session → List Submission
  | [], _, _ => []
  | d :: ds, place, s =>
    let r := d.run.run s
    d.submissions s ++ Deed.submissionsOfAll ds place (note place r.1 r.2)
termination_by structural ds => ds

end

/-! ## One call -/

namespace Session

variable {ds : List Deed} {ending : Ending} {wait : Value} {id : BuilderId} {s t u : Session}

/-- A builder is looked up without changing anything. -/
theorem run_lookUp (id : BuilderId) (s : Session) :
    ((Workshop.read id fun b => b).on workshopPart).run s = (.ok (s.builder id), s) := rfl

theorem run_supply (id : BuilderId) (s : Session) :
    (supply id).run s =
      if (s.builder id).stream.isEmpty then ((Workshop.build id .null).on workshopPart).run s
      else (.ok (), s) := by
  rw [supply, run_bind, run_lookUp]
  dsimp only
  split <;> rfl

/-- The call of a query builder builds it if need be and then submits its stream. -/
theorem run_askWith (send : Sender) (hcan : canAsk (s.builder id) = true) (wait : Value) :
    (askWith send id wait).run s =
      match (supply id).run s with
      | (.ok _, u) =>
        let stream := (u.builder id).stream
        (ask send stream wait).run (announced (s.builder id).kind stream.length u)
      | (.error f, u) => (.error f, u) := by
  obtain ⟨hasks, hbridged⟩ := Bool.and_eq_true_iff.mp hcan
  rw [askWith, run_bind, run_lookUp, run_supply]
  dsimp only
  rw [hasks, hbridged]
  simp only [Bool.not_true, Bool.false_eq_true, if_false]
  by_cases hempty : (s.builder id).stream.isEmpty = true
  · simp only [hempty, if_true]
    rw [run_bind]
    rcases ((Workshop.build id .null).on workshopPart).run s with ⟨f | v, u⟩
    · rfl
    · rfl
  · simp only [hempty]
    rfl

/-- A builder without a query or a bridge does nothing. -/
theorem askWith_refused_stocks (send : Sender) (hcan : canAsk (s.builder id) = false)
    (wait : Value) : Stocks s ((askWith send id wait).run s).2 := by
  rw [askWith, run_bind, run_lookUp]
  dsimp only
  rcases Bool.and_eq_false_iff.mp hcan with hasks | hbridged
  · rw [hasks]
    rfl
  · rw [hbridged]
    cases (s.builder id).kind.asks <;> rfl

theorem supply_extends (hw : s.NamesThere) (hid : id < s.benches.length) :
    Workshop.Extends s.toWorkshop ((supply id).run s).2.toWorkshop := by
  rw [run_supply]
  split
  · exact (Builder.build_accounts Builder.depthLimit id .null s.toWorkshop hw hid).extended
  · exact .refl _

theorem announced_stocks (kind : BuilderKind) (length : Nat) (s : Session) :
    Stocks s (announced kind length s) := say_stocks _ _ _ s rfl

theorem submissionOf_sound (hcan : canAsk (s.builder id) = true) :
    (submissionOf ds ending id wait s).Sound := by
  have hsupply := run_supply id s
  refine ⟨fun hfound => ?_, fun hfound => ?_, fun f hf => ?_, fun x hx => ?_⟩
  · have hempty : (s.builder id).stream.isEmpty = true := List.isEmpty_iff.mpr hfound
    rw [hempty, if_pos rfl] at hsupply
    refine ⟨_, _, rfl, ?_, ?_⟩
    · rw [submissionOf, hsupply, hempty]
      rfl
    · rw [submissionOf, hsupply]
      rfl
  · have hempty : (s.builder id).stream.isEmpty = false :=
      Bool.eq_false_iff.mpr fun h => hfound (List.isEmpty_iff.mp h)
    rw [hempty] at hsupply
    refine ⟨?_, ?_⟩
    · rw [submissionOf, hempty]
      rfl
    · rw [submissionOf, hsupply]
      rfl
  · rw [submissionOf] at hf ⊢
    rw [run_askWith _ hcan]
    dsimp only at hf ⊢
    split at hf
    · rcases hr : (supply id).run s with ⟨g | v, u⟩
      · rw [hr] at hf
        cases hf
        exact ⟨rfl, rfl⟩
      · rw [hr] at hf
        cases hf
    · cases hf
  · rw [submissionOf] at hx ⊢
    dsimp only at hx ⊢
    rcases hr : (supply id).run s with ⟨g | v, u⟩
    · rw [hr] at hx
      cases hx
    · rw [hr] at hx
      obtain ⟨-, hone, htext, -⟩ := ask_stocks wait hx
      exact ⟨hone, htext⟩

end Session

/-! ## Submissions one after another -/

/-- Submissions of one builder that go from one stream to another: each finds the stream that the
one before left. -/
inductive Chained (id : BuilderId) : Stream → List Submission → Stream → Prop where
  | nil (a : Stream) : Chained id a [] a
  | cons {c : Submission} {cs : List Submission} {a b : Stream} (hid : c.builder = id)
      (hfound : c.found = a) (sound : c.Sound) (rest : Chained id c.stream cs b) :
      Chained id a (c :: cs) b

namespace Chained

variable {id : BuilderId} {a b d : Stream} {c c' : Submission} {cs cs' : List Submission} {i : Nat}

theorem append (h : Chained id a cs b) (h' : Chained id b cs' d) : Chained id a (cs ++ cs') d := by
  induction h with
  | nil a => exact h'
  | cons hid hfound sound _ ih => exact .cons hid hfound sound (ih h')

theorem sound (h : Chained id a cs b) (hc : cs[i]? = some c) : c.builder = id ∧ c.Sound := by
  induction h generalizing i with
  | nil a => cases hc
  | cons hid _ sound _ ih =>
      cases i with
      | zero =>
          cases hc
          exact ⟨hid, sound⟩
      | succ i => exact ih hc

/-- A submission finds what the one before left. -/
theorem found_succ (h : Chained id a cs b) (hc : cs[i]? = some c) (hc' : cs[i + 1]? = some c') :
    c'.found = c.stream := by
  induction h generalizing i with
  | nil a => cases hc
  | cons _ _ _ rest ih =>
      cases i with
      | zero =>
          cases hc
          cases rest with
          | nil => cases hc'
          | cons _ hfound =>
              cases hc'
              exact hfound
      | succ i => exact ih hc hc'

/-- The stream of a submission was there at first and nothing was built, or the latest build left
it. -/
theorem source (h : Chained id a cs b) (hc : cs[i]? = some c) :
    (a = c.stream ∧ ∀ k ≤ i, ∀ e, cs[k]? = some e → e.build = none) ∨
      ∃ j ≤ i, ∃ c', cs[j]? = some c' ∧ c'.found = [] ∧ c'.stream = c.stream ∧
        ∀ k, j < k → k ≤ i → ∀ e, cs[k]? = some e → e.build = none := by
  induction h generalizing i with
  | nil a => cases hc
  | @cons c₀ cs a b hid hfound sound rest ih =>
      -- The first submission has these commands already, and what comes after builds nothing.
      have first (hc₀ : c₀.stream = c.stream)
          (hlater : ∀ k < i, ∀ e, cs[k]? = some e → e.build = none) :
          (a = c.stream ∧ ∀ k ≤ i, ∀ e, (c₀ :: cs)[k]? = some e → e.build = none) ∨
            ∃ j ≤ i, ∃ c', (c₀ :: cs)[j]? = some c' ∧ c'.found = [] ∧ c'.stream = c.stream ∧
              ∀ k, j < k → k ≤ i → ∀ e, (c₀ :: cs)[k]? = some e → e.build = none := by
        by_cases hempty : c₀.found = []
        · refine Or.inr ⟨0, Nat.zero_le i, c₀, rfl, hempty, hc₀, fun k hk hki e he => ?_⟩
          obtain ⟨k, rfl⟩ := Nat.exists_eq_succ_of_ne_zero (Nat.ne_of_gt hk)
          exact hlater k hki e he
        · obtain ⟨hbuild, hstream⟩ := sound.keeps hempty
          refine Or.inl ⟨hfound.symm.trans (hstream.symm.trans hc₀), fun k hki e he => ?_⟩
          cases k with
          | zero =>
              cases he
              exact hbuild
          | succ k => exact hlater k hki e he
      cases i with
      | zero =>
          cases hc
          exact first rfl fun k hk => absurd hk (Nat.not_lt_zero k)
      | succ i =>
          rcases ih hc with ⟨hc₀, hlater⟩ | ⟨j, hj, c', hc', hempty, hstream, hlater⟩
          · exact first hc₀ fun k hk => hlater k (Nat.le_of_lt_succ hk)
          · refine Or.inr ⟨j + 1, Nat.succ_le_succ hj, c', hc', hempty, hstream,
              fun k hk hki e he => ?_⟩
            obtain ⟨k, rfl⟩ := Nat.exists_eq_succ_of_ne_zero (Nat.ne_zero_of_lt hk)
            exact hlater k (Nat.lt_of_succ_lt_succ hk) (Nat.le_of_succ_le_succ hki) e he

/-- Where no commands were there at first, what is sent comes from the latest build, and that was
completed or failed in an earlier call and left commands. -/
theorem sent_built (h : Chained id [] cs b) (hc : cs[i]? = some c) {x : Sending}
    (hx : c.sending = some x) :
    ∃ j ≤ i, ∃ c', cs[j]? = some c' ∧ c'.stream = c.stream ∧
      (∀ k, j < k → k ≤ i → ∀ e, cs[k]? = some e → e.build = none) ∧
      (c'.build = some (.ok ()) ∨ j < i ∧ c'.stream ≠ [] ∧ ∃ f, c'.build = some (.error f)) := by
  have hs : c.stream ≠ [] := (h.sound hc).2.stream_ne_nil hx
  rcases h.source hc with ⟨hfirst, -⟩ | ⟨j, hj, c', hc', hfound, hstream, hlater⟩
  · exact absurd hfirst.symm hs
  · have hsound := (h.sound hc').2
    obtain ⟨r, -, -, hbuild, -⟩ := hsound.builds hfound
    refine ⟨j, hj, c', hc', hstream, hlater, ?_⟩
    cases r with
    | ok u => exact Or.inl hbuild
    | error f =>
        -- A call whose build failed sends nothing, so it is not this one.
        refine Or.inr ⟨Nat.lt_of_le_of_ne hj fun hji => ?_, hstream ▸ hs, f, hbuild⟩
        subst hji
        cases hc.symm.trans hc'
        rw [(hsound.fails f hbuild).2] at hx
        cases hx

end Chained

namespace Session

variable {ds : List Deed} {ending : Ending} {stream : Stream} {wait : Value} {id : BuilderId}
  {n : String} {s t u : Session} {cs cs' : List Submission}
  {during : Nat → Session → List Submission}

/-- Whether the submissions of a builder lead from one session to another. -/
structure Leads (id : BuilderId) (s : Session) (cs : List Submission) (t : Session) : Prop where
  chained : Chained id (s.builder id).stream cs (t.builder id).stream
  extended : Workshop.Extends s.toWorkshop t.toWorkshop

theorem Leads.of_stocks (h : Stocks s t) : Leads id s [] t where
  chained := h.builder id ▸ .nil _
  extended := h.extends

theorem Leads.trans (h : Leads id s cs t) (h' : Leads id t cs' u) : Leads id s (cs ++ cs') u :=
  ⟨h.chained.append h'.chained, h.extended.trans h'.extended⟩

/-- What leaves a stream alone goes before and after submissions. -/
theorem leads_change {f : Builder → Builder} (hf : ∀ b, (f b).stream = b.stream)
    (other : BuilderId) (s : Session) :
    Leads id s [] { s with toWorkshop := s.toWorkshop.changeBuilder other f } where
  chained := by
    have hstream : ((s.toWorkshop.changeBuilder other f).builder id).stream =
        (s.builder id).stream := by
      rcases Workshop.builder_changeBuilder_cases other f s.toWorkshop id with he | ⟨rfl, he⟩
      · rw [he]
      · rw [he, hf]
    exact hstream ▸ .nil _
  extended := Workshop.extends_changeBuilder other f s.toWorkshop

/-- Whether a name stands for a builder, and so do all names. -/
structure Knows (n : String) (id : BuilderId) (s : Session) : Prop where
  there : s.NamesThere
  name : s.names.lookup n = some id

theorem Knows.lt (h : Knows n id s) : id < s.benches.length := by
  obtain ⟨l₁, l₂, hnames, -⟩ := List.lookup_eq_some_iff.mp h.name
  refine h.there (n, id) ?_
  rw [hnames]
  exact List.mem_append_right _ List.mem_cons_self

theorem Knows.extend (h : Knows n id s) (hx : Workshop.Extends s.toWorkshop t.toWorkshop) :
    Knows n id t :=
  ⟨h.there.extend hx, hx.names ▸ h.name⟩

/-- The builder of a name is found under it. -/
theorem Knows.run_findBuilder (h : Knows n id s) :
    (findBuilder (.named n)).run s = (.ok id, s) := by
  rw [findBuilder, run_on, Workshop.run_named, show (workshopPart.get s).names = s.names from rfl,
    h.name]
  rfl

/-- Whether what is done meanwhile leads from one session to the next one. -/
def During (n : String) (id : BuilderId) (ds : List Deed)
    (during : Nat → Session → List Submission) : Prop :=
  ∀ place s, Knows n id s → Leads id s (during place s) ((Deed.runAll ds place).run s).2

/-- The submissions of a query call are those of its deeds meanwhile. -/
theorem leads_ask (hd : During n id ds during) (hk : Knows n id s) (ending : Ending)
    (stream : Stream) (wait : Value) :
    Leads id s (Submission.within during (handOver ds ending stream s))
      ((ask (sender (Deed.runAll ds) ending) stream wait).run s).2 := by
  cases hx : handOver ds ending stream s with
  | none => exact .of_stocks (ask_unsent_stocks wait hx)
  | some x =>
      obtain ⟨hstart, -, -, hend⟩ := ask_stocks wait hx
      have hbegin : Stocks s (transmit x.payload x.start) := hstart
      have hmeanwhile := hd x.start.transmissions.length (transmit x.payload x.start)
        (hk.extend hbegin.extends)
      have hall := ((Leads.of_stocks hbegin).trans hmeanwhile).trans (.of_stocks hend)
      rwa [List.nil_append, List.append_nil] at hall

/-- The submissions of a call of the builder are its own one and those of its deeds meanwhile. -/
theorem leads_askWith (hd : During n id ds during) (hk : Knows n id s) (ending : Ending)
    (wait : Value) :
    Leads id s (submitting during ds ending id wait s)
      ((askWith (sender (Deed.runAll ds) ending) id wait).run s).2 := by
  rw [submitting]
  cases hcan : canAsk (s.builder id) with
  | false => exact .of_stocks (askWith_refused_stocks _ hcan wait)
  | true =>
      have hsound : (submissionOf ds ending id wait s).Sound := submissionOf_sound hcan
      have hx := supply_extends hk.there hk.lt
      -- The builder has its stream, and what is done meanwhile goes on from there.
      have from_supply {u t : Session} (hr : ((supply id).run s).2 = u)
          (hrest : Leads id u (Submission.within during (submissionOf ds ending id wait s).sending) t) :
          Leads id s (submissionOf ds ending id wait s ::
            Submission.within during (submissionOf ds ending id wait s).sending) t := by
        subst hr
        exact ⟨.cons rfl rfl hsound hrest.chained, hx.trans hrest.extended⟩
      rw [run_askWith _ hcan]
      rcases hr : (supply id).run s with ⟨f | v, u⟩
      · have hsending : (submissionOf ds ending id wait s).sending = none := by
          rw [submissionOf, hr]
        refine from_supply (congrArg Prod.snd hr) ?_
        rw [hsending]
        exact .of_stocks rfl
      · have hsending : (submissionOf ds ending id wait s).sending =
            handOver ds ending (u.builder id).stream
              (announced (s.builder id).kind (u.builder id).stream.length u) := by
          rw [submissionOf, hr]
        refine from_supply (congrArg Prod.snd hr) ?_
        rw [hsending]
        rw [hr] at hx
        have hsaid := announced_stocks (s.builder id).kind (u.builder id).stream.length u
        have hasked := leads_ask hd (hk.extend (hx.trans hsaid.extends)) ending
          (u.builder id).stream wait
        exact (Leads.of_stocks hsaid).trans hasked

theorem run_connect_bind {α : Type} (x : Op Session α) (id : BuilderId) (s : Session) :
    (connect id >>= fun _ => x).run s = x.run ((connect id).run s).2 := rfl

/-- A builder of a workshop as strict as it is in a session. -/
def strictAsIn (id : BuilderId) (s : Session) (w : Workshop) : Workshop :=
  w.changeBuilder id fun b => { b with strict := (s.builder id).strict }

/-- A builder asks under the settings, and is then as strict as before. -/
theorem run_askUnderSettings (send : Sender) (id : BuilderId) (wait : Value) (s : Session) :
    (askUnderSettings send id wait).run s =
      ((askWith send id wait).ensure fun t =>
        { t with toWorkshop := strictAsIn id ((connect id).run s).2 t.toWorkshop }).run
          (underSettings id s) := by
  rw [askUnderSettings, run_connect_bind]
  generalize hc : ((connect id).run s).2 = u
  have hu : underSettings id s = { u with toWorkshop := u.toWorkshop.changeBuilder id fun b =>
      { b with strict := (u.builder id).strict || u.strictActions } } := by
    rw [underSettings, hc]
  rw [hu]
  generalize askWith send id wait = x
  rfl

theorem leads_connect (id : BuilderId) (s : Session) : Leads id s [] ((connect id).run s).2 :=
  leads_change (f := fun b => { b with bridged := true }) (fun _ => rfl) id s

theorem leads_underSettings (id : BuilderId) (s : Session) : Leads id s [] (underSettings id s) := by
  let t := ((connect id).run s).2
  exact (leads_connect id s).trans (leads_change
    (f := fun b => { b with strict := (t.builder id).strict || t.strictActions }) (fun _ => rfl) id t)

theorem leads_askUnderSettings (hd : During n id ds during) (hk : Knows n id s) (ending : Ending)
    (wait : Value) : Leads id s (submitting during ds ending id wait (underSettings id s))
      ((askUnderSettings (sender (Deed.runAll ds) ending) id wait).run s).2 := by
  have hbefore := leads_underSettings id s
  have hasked := leads_askWith hd (hk.extend hbefore.extended) ending wait
  have hall := (hbefore.trans hasked).trans (leads_change
    (f := fun b => { b with strict := (((connect id).run s).2.builder id).strict })
    (fun _ => rfl) id _)
  rw [run_askUnderSettings, run_ensure]
  rwa [List.nil_append, List.append_nil] at hall

end Session

/-! ## Runs -/

open Session

mutual

/-- The submissions of a deed about a builder lead from the session before it to the one after. -/
theorem Deed.submissions_lead {n : String} {id : BuilderId} : ∀ (d : Deed), d.isAbout n = true →
    ∀ s, Knows n id s → Leads id s (d.submissions s) (d.run.run s).2
  | .query fn args wait ds e => by
      intro hd s hk
      rw [Deed.isAbout] at hd
      rw [Deed.submissions, Deed.run, state_bind_pure, Session.query, run_liftM_bind]
      cases queryOf fn args with
      | error f => exact .of_stocks rfl
      | ok stream => exact leads_ask (Deed.submissionsOfAll_lead ds hd) hk e stream wait
  | .ask stream wait ds e => by
      intro hd s hk
      rw [Deed.isAbout] at hd
      rw [Deed.submissions, Deed.run, state_bind_pure]
      exact leads_ask (Deed.submissionsOfAll_lead ds hd) hk e stream wait
  | .askWith (.named m) connected wait ds e => by
      intro hd s hk
      rw [Deed.isAbout, Bool.and_eq_true, beq_iff_eq] at hd
      obtain ⟨rfl, hds⟩ := hd
      rw [Deed.submissions, Deed.run, run_bind_ok hk.run_findBuilder]
      dsimp only
      rw [follow_ok hk.run_findBuilder]
      have hall : Session.During m id ds (Deed.submissionsOfAll ds) := Deed.submissionsOfAll_lead ds hds
      cases connected with
      | false =>
          simp only [Bool.false_eq_true, if_false]
          rw [state_bind_pure]
          exact leads_askWith hall hk e wait
      | true =>
          have hconnect := leads_connect id s
          simp only [if_true]
          rw [run_connect_bind, state_bind_pure]
          exact hconnect.trans (leads_askWith hall (hk.extend hconnect.extended) e wait)
  | .askWith (.fresh ..) _ _ _ _ => nofun
  | .askUnderSettings (.named m) wait ds e => by
      intro hd s hk
      rw [Deed.isAbout, Bool.and_eq_true, beq_iff_eq] at hd
      obtain ⟨rfl, hds⟩ := hd
      rw [Deed.submissions, Deed.run, run_bind_ok hk.run_findBuilder, state_bind_pure]
      dsimp only
      rw [follow_ok hk.run_findBuilder]
      exact leads_askUnderSettings (Deed.submissionsOfAll_lead ds hds) hk e wait
  | .askUnderSettings (.fresh ..) _ _ _ => nofun
  | .respond r => by
      intro _ s _
      rw [Deed.run, state_bind_pure]
      exact .of_stocks (line_stocks _ s rfl)
  | .telemetry raw => by
      intro _ s _
      rw [Deed.run, state_bind_pure]
      exact .of_stocks (receive_stocks raw s rfl)
  | .close => by
      intro _ s _
      rw [Deed.run, state_bind_pure]
      exact .of_stocks (line_stocks _ s rfl)
  | .reopen => by
      intro _ s _
      rw [Deed.run, state_bind_pure]
      exact .of_stocks (line_stocks _ s rfl)
  | .lineState => fun _ _ _ => .of_stocks rfl
  | .agentStatus a => by
      intro _ s _
      rw [Deed.run, state_bind_pure]
      exact .of_stocks (findAgent_stocks a s rfl)
  | .stop => by
      intro _ s _
      rw [Deed.run, state_bind_pure]
      exact .of_stocks (stop_stocks s rfl)
  | .strictActions => fun _ _ _ => .of_stocks rfl
  | .configure act => by
      intro _ s _
      rw [Deed.run, state_bind_pure]
      exact .of_stocks (config_stocks _ s rfl)
  | .fail f => fun _ _ _ => .of_stocks rfl
  | .abandonedQuery .. | .builderStep .. | .inspect .. | .composeStream .. | .sendUpload ..
  | .upload .. => nofun
termination_by structural d => d

/-- So do those of deeds one after another. -/
theorem Deed.submissionsOfAll_lead {n : String} {id : BuilderId} : ∀ (ds : List Deed),
    Deed.areAbout n ds = true → During n id ds (Deed.submissionsOfAll ds)
  | [], _, place, s, _ => .of_stocks rfl
  | d :: ds, hb, place, s, hk => by
      rw [Deed.areAbout, Bool.and_eq_true] at hb
      obtain ⟨hd, hds⟩ := hb
      have hfirst := Deed.submissions_lead d hd s hk
      let t := note place (d.run.run s).1 (d.run.run s).2
      have hnoted : Leads id s (d.submissions s) t := ⟨hfirst.chained, hfirst.extended⟩
      exact hnoted.trans (Deed.submissionsOfAll_lead ds hds place t (hk.extend hnoted.extended))
termination_by structural ds => ds

end

/-- What the calls of a query builder submit, among deeds that touch its stream only through them, if
the stream is empty at first:

* a call whose build fails sends nothing and ends with that fault, and the next call builds exactly
  if no commands are left,
* every payload is the text of the stream that the latest build left, and that build was completed
  or it failed in an earlier call and left commands,
* if failed builds leave no commands, every payload is the text of the stream of a completed one. -/
theorem Deed.submissions_built {n : String} {id : BuilderId} (ds : List Deed)
    (hd : Deed.areAbout n ds = true) (place : Nat) (s : Session) (hk : Session.Knows n id s)
    (hempty : (s.builder id).stream = []) :
    let cs := Deed.submissionsOfAll ds place s
    (∀ (i : Nat) c, cs[i]? = some c → (∀ f, c.build = some (.error f) →
        c.outcome = .error f ∧ c.sending = none) ∧
      ∀ c', cs[i + 1]? = some c' → (c'.build.isSome ↔ c.stream = [])) ∧
    (∀ (i : Nat) c x, cs[i]? = some c → c.sending = some x → c.stream.framed = .ok x.payload ∧
      ∃ j ≤ i, ∃ c', cs[j]? = some c' ∧ c'.stream = c.stream ∧
        (∀ k, j < k → k ≤ i → ∀ e, cs[k]? = some e → e.build = none) ∧
        (c'.build = some (.ok ()) ∨ j < i ∧ c'.stream ≠ [] ∧ ∃ f, c'.build = some (.error f))) ∧
    ((∀ c ∈ cs, ∀ f, c.build = some (.error f) → c.stream = []) →
      ∀ c ∈ cs, ∀ x, c.sending = some x → c.stream.framed = .ok x.payload ∧
        ∃ c' ∈ cs, c'.build = some (.ok ()) ∧ c'.stream = c.stream) := by
  have hchain := (Deed.submissionsOfAll_lead ds hd place s hk).chained
  rw [hempty] at hchain
  intro cs
  have hsound {i : Nat} {c : Submission} (hc : cs[i]? = some c) : c.Sound := (hchain.sound hc).2
  have htext {i : Nat} {c : Submission} {x : Sending} (hc : cs[i]? = some c)
      (hx : c.sending = some x) : c.stream.framed = .ok x.payload := ((hsound hc).sends x hx).2
  refine ⟨fun i c hc => ⟨(hsound hc).fails, fun c' hc' => ?_⟩,
    fun i c x hc hx => ⟨htext hc hx, hchain.sent_built hc hx⟩, fun hclean c hmem x hx => ?_⟩
  · rw [← hchain.found_succ hc hc']
    exact (hsound hc').builds_iff
  · obtain ⟨i, hc⟩ := List.getElem?_of_mem hmem
    obtain ⟨j, -, c', hc', hstream, -, hbuilt⟩ := hchain.sent_built hc hx
    have hmem' := List.mem_of_getElem? hc'
    refine ⟨htext hc hx, c', hmem', ?_, hstream⟩
    rcases hbuilt with hok | ⟨-, hleft, f, hfailed⟩
    · exact hok
    · exact absurd (hclean c' hmem' f hfailed) hleft

namespace Session

/-- A session with a query builder that runs a program before it adds its query, on a device with
one action, where the settings ask for known actions. -/
def pageSession (program : Program) : Session :=
  let device : Device :=
    { id := .int 25, name := .text "UFC", actions := [{ name := .text "1", code := .int 3001 }] }
  let airframe : Airframe := { name := .text "F-16", devices := [device] }
  { idleSession with
    benches := [⟨{ kind := .scriptQuery, airframe := some airframe, fn := .text "GetPage" }, program⟩]
    names := [("page", 0)]
    settings := { strictActions := .bool true } }

theorem knows_pageSession (program : Program) : Knows "page" 0 (pageSession program) := by
  refine ⟨fun e he => ?_, rfl⟩
  obtain rfl := List.mem_singleton.mp he
  exact Nat.zero_lt_one

/-- Presses an action that the device lacks. -/
def missing : Step :=
  .call (.action (.named (.value (.text "UFC"))) (.value (.text "NOPE")) (.value (.int 0)))

end Session

/-- A query that is tried under strict settings, then under lenient ones, and then asked again while
it is outstanding, before its answer arrives. -/
def retriedQuery : List Deed :=
  let ask (ds : List Deed) : Deed :=
    .askUnderSettings (.named "page") (.int 0) ds (.gives (.bool true))
  [ask [], .configure (.set (.text "builder") (.text "strict_actions") (.bool false)),
    ask [ask [], .respond (.text "UFC")]]

theorem Deed.submissions_built_retried :
    Deed.areAbout "page" retriedQuery = true ∧
      Session.Knows "page" 0 (Session.pageSession [Session.missing]) ∧
      ((Session.pageSession [Session.missing]).builder 0).stream = [] ∧
      ∃ c d e x, Deed.submissionsOfAll retriedQuery 0 (Session.pageSession [Session.missing]) =
          [c, d, e] ∧
        c.build = some (.error (.unknownAction (.text "UFC") ["NOPE"])) ∧ c.outcome =
          .error (.unknownAction (.text "UFC") ["NOPE"]) ∧ c.sending = none ∧
        d.build.isSome ∧ d.sending = some x ∧ d.stream.framed = .ok x.payload ∧
        ∃ c' ∈ [c, d, e], c'.build = some (.ok ()) ∧ c'.stream = d.stream := by
  have hknows := Session.knows_pageSession [Session.missing]
  have hcs : ∃ c d e x, Deed.submissionsOfAll retriedQuery 0 (Session.pageSession [Session.missing]) =
      [c, d, e] ∧ c.build = some (.error (.unknownAction (.text "UFC") ["NOPE"])) ∧ c.stream = [] ∧
      d.build = some (.ok ()) ∧ d.sending = some x ∧ e.build = none :=
    ⟨_, _, _, _, rfl, rfl, rfl, rfl, rfl, rfl⟩
  obtain ⟨c, d, e, x, hcs, hc, hempty, hd, hx, he⟩ := hcs
  have hbuilt := Deed.submissions_built retriedQuery rfl 0 _ hknows rfl
  rw [hcs] at hbuilt
  obtain ⟨hnext, -, hclean⟩ := hbuilt
  obtain ⟨hfails, hbuilds⟩ := hnext 0 c rfl
  obtain ⟨houtcome, hsilent⟩ := hfails _ hc
  have hleaves : ∀ c' ∈ [c, d, e], ∀ f, c'.build = some (.error f) → c'.stream = [] := by
    simp [hempty, hd, he]
  obtain ⟨htext, hcompleted⟩ :=
    hclean hleaves d (List.mem_cons_of_mem c List.mem_cons_self) x hx
  exact ⟨rfl, hknows, rfl, c, d, e, x, hcs, hc, houtcome, hsilent, (hbuilds d rfl).mpr hempty, hx,
    htext, hcompleted⟩

/-- A query that is asked and asked again. -/
def repeatedQuery : List Deed :=
  let ask : Deed := .askUnderSettings (.named "page") (.int 0) [] (.gives (.bool true))
  [ask, ask]

/-- Adds a query. -/
def Session.adding : Step := .call (.query (.value (.text "GetMode")) (.value .null))

/-- A build that fails may leave commands, also a query, and then the next call sends them. -/
theorem Deed.submissions_half_built :
    Deed.areAbout "page" repeatedQuery = true ∧
      Session.Knows "page" 0 (Session.pageSession [Session.adding, Session.missing]) ∧
      ((Session.pageSession [Session.adding, Session.missing]).builder 0).stream = [] ∧
      ∃ c d x, Deed.submissionsOfAll repeatedQuery 0
          (Session.pageSession [Session.adding, Session.missing]) = [c, d] ∧
        c.build = some (.error (.unknownAction (.text "UFC") ["NOPE"])) ∧ c.stream ≠ [] ∧
        d.build = none ∧ d.sending = some x ∧ d.stream = [.query (.text "GetMode") []] ∧
        d.stream.framed = .ok x.payload := by
  have hknows := Session.knows_pageSession [Session.adding, Session.missing]
  have hcs : ∃ c d x, Deed.submissionsOfAll repeatedQuery 0
      (Session.pageSession [Session.adding, Session.missing]) = [c, d] ∧
      c.build = some (.error (.unknownAction (.text "UFC") ["NOPE"])) ∧
      c.stream = [.query (.text "GetMode") []] ∧ d.build = none ∧ d.sending = some x ∧
      d.stream = [.query (.text "GetMode") []] := ⟨_, _, _, rfl, rfl, rfl, rfl, rfl, rfl⟩
  obtain ⟨c, d, x, hcs, hc, hleft, hd, hx, hds⟩ := hcs
  have hchain := (Deed.submissionsOfAll_lead repeatedQuery rfl 0 _ hknows).chained
  rw [hcs] at hchain
  obtain ⟨-, htext⟩ := (hchain.sound (i := 1) rfl).2.sends x hx
  exact ⟨rfl, hknows, rfl, c, d, x, hcs, hc, hleft ▸ nofun, hd, hx, hds, htext⟩

end Cockpit
