import Cockpit.Proofs.Bridge.Consumed
import Cockpit.Proofs.Session.Doings
import Cockpit.Proofs.Session.Hearing

/-!
# Stopped sessions

A session that was stopped does not run, and its bridge is closed with nobody in the slot
(`Session.Stopped`).  Uploads ask for the one and queries for the other, so both have to stay as
they are.  `Session.Passes` says that they do along all that is done, and that what comes behind
a stop goes on from where it ended, whatever calls it was done inside of.

A query call first makes a stream (`Deed.makes`) and then asks for the slot.  On a closed bridge
it ends there.  `Doing.Refused` says what becomes of each deed in a stopped session, and
`Doing.refused_of_stopped` proves it.  A query that was outstanding when its session was stopped
finds its fate cancelled when its sender has ended (`Doing.outstanding_stopped`).
-/

namespace Cockpit

open Op Bridge

/-! ## Sessions that go on -/

namespace Session

variable {n m : Ticket} {s t u : Session}

/-- Whether the bridge of a session is closed and idle if the session does not run. -/
def Coherent (s : Session) : Prop :=
  s.running = false → s.bridge.closed = true ∧ s.bridge.slot = none

/-- What a session keeps of its state and of the tickets below a number, however long it goes
on. -/
structure Since (n : Ticket) (s t : Session) : Prop where
  bridge : Onward n s.bridge t.bridge
  stays : s.running = false → t.running = false
  coherent : s.Coherent → t.Coherent

namespace Since

theorem refl (s : Session) : Since n s s := ⟨.refl _, id, id⟩

theorem trans (h : Since n s t) (h' : Since n t u) : Since n s u where
  bridge := h.bridge.trans h'.bridge
  stays hs := h'.stays (h.stays hs)
  coherent hs := h'.coherent (h.coherent hs)

theorem mono (h : Since n s t) (hm : m ≤ n) : Since m s t := ⟨h.bridge.mono hm, h.stays, h.coherent⟩

end Since

theorem Calm.since (h : Calm n s t) : Since n s t where
  bridge := h.bridge
  stays hs := h.running.trans hs
  coherent hs ht := by
    obtain ⟨hclosed, hfree⟩ := hs (h.running ▸ ht)
    exact ⟨h.bridge.closed hclosed, h.bridge.idle hclosed hfree⟩

/-- A session that runs as before goes on if its bridge does. -/
theorem since_onward (h : Onward n s.bridge t.bridge) (hr : t.running = s.running) :
    Since n s t where
  bridge := h
  stays hs := hr.trans hs
  coherent hs ht := by
    obtain ⟨hclosed, hfree⟩ := hs (hr ▸ ht)
    exact ⟨h.closed hclosed, h.idle hclosed hfree⟩

/-! ### Stopping -/

theorem closed_of_shut {b c : Bridge} (h : Turn b .shut c) : c.closed = true ∧ c.slot = none := by
  cases h with
  | cancels hs => exact ⟨rfl, rfl⟩
  | shut hs => exact ⟨rfl, hs⟩

theorem run_say (source : Log.Source) (level : Log.Level) (text : String) (s : Session) :
    ∃ j, (say source level text).run s = (.ok (), { s with journal := j }) := ⟨_, rfl⟩

/-- A session that runs is stopped, and its bridge is shut. -/
theorem run_stop_running (h : s.running = true) :
    (stop.run s).1 = .ok () ∧ (stop.run s).2.running = false ∧
      Turn s.bridge .shut (stop.run s).2.bridge := by
  obtain ⟨j, hsay⟩ := run_say .uplink .info "Stopping Cockpit-Uplink..." s
  have hclose (l : Line) : (Line.close.run l).1 = .ok () := by
    rw [Line.close, Line.change, run_update_bind, run_state_bind]
    split
    · rfl
    · rfl
  have hline (t : Session) : (Line.close.on linePart).run t =
      (.ok (), ((Line.close.on linePart).run t).2) := Prod.ext (hclose _) rfl
  rw [stop, run_state_bind, h]
  simp only [Bool.not_true, Bool.false_eq_true, if_false]
  rw [run_bind_ok hsay, run_update_bind, run_bind_ok (hline _)]
  exact ⟨rfl, rfl, Line.close_turn ⟨s.bridge, j⟩⟩

/-- Stopping a session again only says so. -/
theorem run_stop_again (h : s.running = false) :
    ∃ j, stop.run s = (.ok (), { s with journal := j }) := by
  have hstop : stop.run s = (say .uplink .warning "Uplink is not running").run s := by
    rw [stop, run_state_bind, h]
    rfl
  rw [hstop]
  exact run_say _ _ _ s

theorem stop_since (s : Session) : Since n s (stop.run s).2 := by
  cases hr : s.running with
  | false =>
      obtain ⟨j, h⟩ := run_stop_again hr
      rw [h]
      exact ⟨.refl _, id, id⟩
  | true =>
      obtain ⟨-, hstopped, hturn⟩ := run_stop_running hr
      exact ⟨hturn.onward nofun, fun _ => hstopped, fun _ _ => closed_of_shut hturn⟩

/-- A response goes on, whoever holds the slot. -/
theorem onward_hear (b : Bridge) (a : String) : Onward n b (b.hear a) := by
  rw [hear]
  split
  · rename_i hs
    exact onward_settle Fate.noConfusion hs
  · exact onward_of_eq id rfl rfl

theorem receive_since (raw : Value) (s : Session) : Since n s ((receive raw).run s).2 := by
  cases hparse : ((s.decoder.parse raw).run s.journal).1 with
  | error f =>
      obtain ⟨j, h⟩ := run_receive_error hparse
      rw [h]
      exact ⟨.refl _, id, id⟩
  | ok r =>
      obtain ⟨j, h⟩ := run_receive_ok hparse
      have honward : Onward n s.bridge
          (s.bridge.hearAll (r.2.bind Telemetry.Packet.answer?).toList) := by
        cases r.2.bind Telemetry.Packet.answer? with
        | none => exact .refl _
        | some a => exact onward_hear _ a
      rw [h]
      exact since_onward honward rfl

theorem answer_since (response : Value) (s : Session) :
    Since n s ((answer response).run s).2 :=
  since_onward ((Line.answer_turn response (linePart.get s)).onward nofun) rfl

theorem close_since (s : Session) : Since n s ((Line.close.on linePart).run s).2 :=
  since_onward ((Line.close_turn (linePart.get s)).onward nofun) rfl

/-- What does not send goes on, unless it reopens the bridge. -/
theorem run_since {d : Deed} (hd : d.isSending = false) (hopen : d ≠ .reopen) (s : Session) :
    Since n s (d.run.run s).2 := by
  have hquiet {d : Deed} (hq : d.isQuiet = true) : Since n s (d.run.run s).2 :=
    (Deed.run_calm d hq s (.refl s)).since
  cases d with
  | reopen => exact absurd rfl hopen
  | telemetry raw =>
      rw [Deed.run, state_bind_pure]
      exact receive_since raw s
  | respond r =>
      rw [Deed.run, state_bind_pure]
      exact answer_since r s
  | close =>
      rw [Deed.run, state_bind_pure]
      exact close_since s
  | stop =>
      rw [Deed.run, state_bind_pure]
      exact stop_since s
  | query | ask | abandonedQuery | askWith | askUnderSettings | sendUpload | upload => cases hd
  | _ => exact hquiet rfl

/-! ### Along all that is done -/

variable {cs cs' : List Doing} {c : Doing}

/-- What holds between two sessions and all that is done between them as long as nothing reopens
the bridge: everything goes on from the first session, and behind a stop from its end. -/
structure Passes (s : Session) (cs : List Doing) (t : Session) : Prop where
  ends : Since s.bridge.fates.length s t
  begins : ∀ c ∈ cs, Since s.bridge.fates.length s c.before
  order : cs.Pairwise fun c d => c.deed = .stop → Since s.bridge.fates.length c.after d.before
  rest : ∀ c ∈ cs, c.deed = .stop → Since s.bridge.fates.length c.after t

namespace Passes

theorem refl (s : Session) : Passes s [] s where
  ends := .refl s
  begins _ hc := absurd hc List.not_mem_nil
  order := .nil
  rest _ hc := absurd hc List.not_mem_nil

theorem append (h : Passes s cs t) (h' : Passes t cs' u) : Passes s (cs ++ cs') u where
  ends := h.ends.trans (h'.ends.mono h.ends.bridge.grows)
  begins c hc := by
    rcases List.mem_append.mp hc with hc | hc
    · exact h.begins c hc
    · exact h.ends.trans ((h'.begins c hc).mono h.ends.bridge.grows)
  order := by
    refine List.pairwise_append.mpr ⟨h.order, ?_, fun c hc d hd hstop => ?_⟩
    · exact h'.order.imp fun hcd hstop => (hcd hstop).mono h.ends.bridge.grows
    · exact (h.rest c hc hstop).trans ((h'.begins d hd).mono h.ends.bridge.grows)
  rest c hc hstop := by
    rcases List.mem_append.mp hc with hc | hc
    · exact (h.rest c hc hstop).trans (h'.ends.mono h.ends.bridge.grows)
    · exact (h'.rest c hc hstop).mono h.ends.bridge.grows

/-- What holds from a session holds from one that it goes on from. -/
theorem before (hu : Since s.bridge.fates.length s u) (h : Passes u cs t) : Passes s cs t where
  ends := hu.trans (h.ends.mono hu.bridge.grows)
  begins c hc := hu.trans ((h.begins c hc).mono hu.bridge.grows)
  order := h.order.imp fun hcd hstop => (hcd hstop).mono hu.bridge.grows
  rest c hc hstop := (h.rest c hc hstop).mono hu.bridge.grows

/-- What holds up to a session holds up to one that goes on from it. -/
theorem behind (h : Passes s cs t) (hu : Since s.bridge.fates.length t u) : Passes s cs u where
  ends := h.ends.trans hu
  begins := h.begins
  order := h.order
  rest c hc hstop := (h.rest c hc hstop).trans hu

theorem single (h : Since c.before.bridge.fates.length c.before t)
    (hafter : c.deed = .stop → t = c.after) : Passes c.before [c] t where
  ends := h
  begins d hd := by
    rw [List.mem_singleton.mp hd]
    exact .refl _
  order := List.pairwise_singleton _ c
  rest d hd hstop := by
    obtain rfl := List.mem_singleton.mp hd
    rw [hafter hstop]
    exact .refl _

/-- A deed that does not stop the session itself begins before all that is done inside. -/
theorem enter (hc : c.deed ≠ .stop) (h : Passes c.before cs t) : Passes c.before (c :: cs) t where
  ends := h.ends
  begins d hd := by
    rcases List.mem_cons.mp hd with rfl | hd
    · exact .refl _
    · exact h.begins d hd
  order := List.pairwise_cons.mpr ⟨fun _ _ hstop => absurd hstop hc, h.order⟩
  rest d hd hstop := by
    rcases List.mem_cons.mp hd with rfl | hd
    · exact absurd hstop hc
    · exact h.rest d hd hstop

end Passes

theorem counted_since (r : Option (Except Fault Bool)) (s : Session) : Since n s (counted r s) := by
  rcases r with _ | _ | _ | _
  · exact .refl s
  · exact .refl s
  · exact ⟨.refl _, id, id⟩
  · exact ⟨.refl _, id, id⟩

/-- All that is done passes, as long as nothing reopens the bridge. -/
theorem passes_tracks :
    Deed.Tracks fun s cs t => (∀ c ∈ cs, c.deed ≠ .reopen) → Passes s cs t where
  refl s _ := .refl s
  append h h' hcs := (h fun c hc => hcs c (List.mem_append_left _ hc)).append
    (h' fun c hc => hcs c (List.mem_append_right _ hc))
  note _ _ h hcs := (h hcs).behind ⟨.refl _, id, id⟩
  transmit _ h hcs := .before (u := transmit _ _) ⟨.refl _, id, id⟩ (h hcs)
  before hu h hcs := .before hu.since (h hcs)
  behind h hu hcs := (h hcs).behind hu.since
  alone c hc hcs := .single (run_since hc (hcs c List.mem_cons_self) _) fun _ => rfl
  enter hc h hcs := by
    refine .enter ?_ ((h fun c hc => hcs c (List.mem_cons_of_mem _ hc)).behind (counted_since _ _))
    intro hstop
    rw [hstop] at hc
    cases hc

/-! ## What query calls make -/

variable {β : Type} {f : Fault} {stream : Stream} {id : BuilderId} {wait : Value}

/-- The stream that a builder submits. -/
def makeStream (id : BuilderId) : Op Session Stream := do
  let b := (← .state).builder id
  if canAsk b then
    supply id
    return ((← .state).builder id).stream
  else .stop (refusal b)

end Session

open Session in
/-- The stream that a query call makes before it asks for the slot. -/
def Deed.makes : Deed → Op Session Stream
  | .query fn args _ _ _ => liftM (queryOf fn args)
  | .ask stream _ _ _ => pure stream
  | .askWith t connected _ _ _ => do
    let id ← findBuilder t
    if connected then connect id
    makeStream id
  | .askUnderSettings t _ _ _ => do
    let id ← findBuilder t
    .update (underSettings id)
    makeStream id
  | _ => pure []

/-- What the sender of a query call does, and how it ends. -/
def Deed.asking : Deed → Option (List Deed × Ending)
  | .query _ _ _ ds e | .ask _ _ ds e | .askWith _ _ _ ds e | .askUnderSettings _ _ ds e =>
    some (ds, e)
  | _ => none

namespace Session

/-- How a query call goes on once it has or has not made its stream: all that it did before was
to builders and in the journal. -/
inductive Asks (x : Sender → Op Session Value) (make : Op Session Stream)
    (lead : Op Session (Option String)) (s : Session) : Prop where
  | refused {f : Fault} (w : Workshop) (hmake : (make.run s).1 = .error f)
      (hlead : handed lead s = none)
      (hrun : ∀ send, (x send).run s = (.error f, workshopPart.set w s))
  | asks {stream : Stream} (wait : Value) (w : Workshop) (g : Workshop → Workshop)
      (hmake : (make.run s).1 = .ok stream)
      (hlead : handed lead s = handed (askLead stream) (workshopPart.set w s))
      (hrun : ∀ send, (x send).run s =
        let r := (ask send stream wait).run (workshopPart.set w s)
        (r.1, workshopPart.set (g r.2.toWorkshop) r.2))

namespace Asks

theorem of_run {x y : Sender → Op Session Value} {m m' : Op Session Stream}
    {l l' : Op Session (Option String)} (h : Asks x m l s)
    (hx : ∀ send, (y send).run s = (x send).run s) (hm : m'.run s = m.run s)
    (hl : handed l' s = handed l s) : Asks y m' l' s := by
  cases h with
  | refused w hmake hnone hrun =>
      exact .refused w (hm ▸ hmake) (hl.trans hnone) fun send => (hx send).trans (hrun send)
  | asks wait w g hmake hasks hrun =>
      exact .asks wait w g (hm ▸ hmake) (hl.trans hasks) fun send => (hx send).trans (hrun send)

/-- What is done to builders first makes no difference. -/
theorem behind {y : Op Session β} {x : β → Sender → Op Session Value} {make : β → Op Session Stream}
    {lead : β → Op Session (Option String)} (hy : ∃ w, (y.run s).2 = workshopPart.set w s)
    (hx : ∀ b u, y.run s = (.ok b, u) → Asks (x b) (make b) (lead b) u) :
    Asks (fun send => y >>= fun b => x b send) (y >>= make) (y >>= lead) s := by
  obtain ⟨w, hw⟩ := hy
  rcases hr : y.run s with ⟨f | b, u⟩
  · rw [hr] at hw
    obtain rfl : u = workshopPart.set w s := hw
    refine .refused w (by rw [run_bind_error hr]) ?_ fun send => run_bind_error hr
    rw [handed, run_bind_error hr]
  · rw [hr] at hw
    obtain rfl : u = workshopPart.set w s := hw
    have hlead : handed (y >>= lead) s = handed (lead b) (workshopPart.set w s) := by
      rw [handed, run_bind_ok hr, handed]
    cases hx b _ hr with
    | refused w' hmake hnone hrun =>
        refine .refused w' (by rw [run_bind_ok hr, hmake]) (hlead.trans hnone) fun send => ?_
        exact (run_bind_ok hr).trans (hrun send)
    | asks wait w' g hmake hasks hrun =>
        refine .asks wait w' g (by rw [run_bind_ok hr, hmake]) (hlead.trans hasks) fun send => ?_
        exact (run_bind_ok hr).trans (hrun send)

/-- So does what is done to builders in the end. -/
theorem ensure {x : Sender → Op Session Value} {make : Op Session Stream}
    {lead : Op Session (Option String)} (h : Asks x make lead s) (g : Workshop → Workshop) :
    Asks (fun send => (x send).ensure fun t => workshopPart.set (g t.toWorkshop) t) make lead
      s := by
  cases h with
  | refused w hmake hnone hrun =>
      refine .refused (g w) hmake hnone fun send => ?_
      rw [run_ensure, hrun]
      rfl
  | asks wait w g' hmake hasks hrun =>
      refine .asks wait w (fun w => g (g' w)) hmake hasks fun send => ?_
      rw [run_ensure, hrun]
      rfl

end Asks

theorem ask_asks (stream : Stream) (wait : Value) (s : Session) :
    Asks (fun send => ask send stream wait) (pure stream) (askLead stream) s :=
  .asks wait s.toWorkshop id rfl rfl fun _ => rfl

theorem query_asks (fn args wait : Value) (s : Session) :
    Asks (fun send => query send fn args wait) (liftM (queryOf fn args))
      (liftM (queryOf fn args) >>= askLead) s := by
  cases h : queryOf fn args with
  | error f =>
      refine .refused s.toWorkshop rfl rfl fun send => ?_
      rw [query, h]
      rfl
  | ok stream =>
      refine .asks wait s.toWorkshop id rfl rfl fun send => ?_
      rw [query, h]
      rfl

/-- What only builders and the journal can tell. -/
theorem crafted {α : Type} {x : Op Session α}
    (hx : x.Preserves fun t => ∃ w, t = workshopPart.set w s) :
    ∃ w, (x.run s).2 = workshopPart.set w s := hx s ⟨s.toWorkshop, rfl⟩

theorem workshop_crafts {α : Type} (x : Op Workshop α) :
    (x.on workshopPart).Preserves fun t => ∃ w, t = workshopPart.set w s :=
  preserves_on x fun _ w ⟨_, h⟩ => ⟨w, by rw [h]; rfl⟩

theorem supply_crafts (id : BuilderId) :
    (supply id).Preserves fun t => ∃ w, t = workshopPart.set w s :=
  (workshop_crafts _).bind fun _ => preserves_ite (workshop_crafts _) (preserves_pure _)

theorem askWith_asks (id : BuilderId) (wait : Value) (s : Session) :
    Asks (fun send => askWith send id wait) (makeStream id) (submitLead id) s := by
  cases hcan : canAsk (s.builder id) with
  | false =>
      refine .refused (f := refusal (s.builder id)) s.toWorkshop ?_ ?_ fun send => ?_
      · rw [makeStream, run_state_bind]
        dsimp only
        rw [hcan]
        rfl
      · rw [handed_submitLead, hcan]
        rfl
      · exact run_askWith_refused send hcan wait
  | true =>
      refine Asks.of_run (x := fun send => supply id >>= fun _ => do
          let stream := ((← .state).builder id).stream
          .update (announced (s.builder id).kind stream.length)
          ask send stream wait)
        (m := supply id >>= fun _ => do return ((← .state).builder id).stream)
        (l := supplyLead id (s.builder id).kind) ?_ (fun send => ?_) ?_ ?_
      · refine .behind (crafted (supply_crafts id)) fun _ u _ => ?_
        exact .asks wait (announced (s.builder id).kind (u.builder id).stream.length u).toWorkshop
          (fun w => w) rfl rfl fun _ => rfl
      · rw [run_askWith send hcan, run_bind]
        rcases (supply id).run s with ⟨f | v, u⟩ <;> rfl
      · rw [makeStream, run_state_bind]
        dsimp only
        rw [hcan]
        rfl
      · rw [handed_submitLead, hcan]
        rfl

theorem askUnderSettings_asks (id : BuilderId) (wait : Value) (s : Session) :
    Asks (fun send => askUnderSettings send id wait)
      (Op.update (underSettings id) >>= fun _ => makeStream id)
      (Op.update (underSettings id) >>= fun _ => submitLead id) s := by
  have hasks : Asks (fun send => Op.update (underSettings id) >>= fun _ => askWith send id wait)
      (Op.update (underSettings id) >>= fun _ => makeStream id)
      (Op.update (underSettings id) >>= fun _ => submitLead id) s :=
    .behind ⟨(underSettings id s).toWorkshop, rfl⟩ fun _ u _ => askWith_asks id wait u
  exact (hasks.ensure (strictAsIn id ((connect id).run s).2)).of_run
    (fun send => run_askUnderSettings send id wait s) rfl rfl

/-- A builder that is found first asks as one that is there. -/
theorem found_asks {t : Target} {x : BuilderId → Sender → Op Session Value}
    {make : BuilderId → Op Session Stream} {lead : BuilderId → Op Session (Option String)}
    (h : ∀ id u, Asks (x id) (make id) (lead id) u) (s : Session) :
    Asks (fun send => findBuilder t >>= fun id => x id send) (findBuilder t >>= make)
      (findBuilder t >>= lead) s :=
  .behind (crafted (workshop_crafts _)) fun id u _ => h id u

end Session

open Session

/-- The operation of a query call, as one of its sender. -/
theorem Deed.run_asking {d : Deed} {ds : List Deed} {e : Ending} (h : d.asking = some (ds, e)) :
    ∃ x : Sender → Op Session Value, (∀ s, Asks x d.makes d.lead s) ∧
      d.run = (x (sender (Deed.runAll ds) e) >>= fun v => pure (.value v)) ∧
      ∀ s, d.inside s = Doing.meanwhile (Deed.doings ds) d s := by
  cases d with
  | query fn args wait ds e =>
      cases h
      exact ⟨_, query_asks fn args wait, by rw [Deed.run], fun s => by rw [Deed.inside]⟩
  | ask stream wait ds e =>
      cases h
      exact ⟨_, ask_asks stream wait, by rw [Deed.run], fun s => by rw [Deed.inside]⟩
  | askWith t connected wait ds e =>
      cases h
      refine ⟨fun send => findBuilder t >>= fun id => do
        if connected then connect id
        Session.askWith send id wait, found_asks fun id u => ?_, ?_, fun s => by rw [Deed.inside]⟩
      · cases connected with
        | false => exact askWith_asks id wait u
        | true => exact .behind (crafted (workshop_crafts _)) fun _ v _ => askWith_asks id wait v
      · rw [Deed.run, Op.bind_assoc]
        congr 1
        funext id
        cases connected <;> rfl
  | askUnderSettings t wait ds e =>
      cases h
      refine ⟨fun send => findBuilder t >>= fun id => Session.askUnderSettings send id wait,
        found_asks fun id u => askUnderSettings_asks id wait u, ?_, fun s => by rw [Deed.inside]⟩
      rw [Deed.run, Op.bind_assoc]
  | _ => cases h

/-! ## A stopped session -/

/-- A session that does not run, and whose bridge is closed with nobody in the slot. -/
structure Session.Stopped (s : Session) : Prop where
  running : s.running = false
  closed : s.bridge.closed = true
  free : s.bridge.slot = none

namespace Session

variable {s u : Session} {stream : Stream} {wait : Value} {payload : String} {t : Ticket}

/-- What a query call on a closed bridge answers, by the stream that it makes. -/
def answerless : Except Fault Stream → Except Fault Answer
  | .ok stream =>
    if stream.queries = 1 then .ok (.value .null) else .error (.notOneQuery stream.queries)
  | .error f => .error f

/-- A closed bridge gives no slot. -/
theorem run_reserve_closed (h : s.bridge.closed = true) (stream : Stream) :
    ∃ j, (reserve stream).run s =
      if stream.queries = 1 then (.ok none, { s with journal := j })
      else (.error (.notOneQuery stream.queries), s) := by
  have hclaim : ∃ j, (Line.claim.on linePart).run s = (.ok none, { s with journal := j }) := by
    rw [run_on]
    rcases Line.claim_cases (linePart.get s) with ⟨hopen, -⟩ | ⟨-, j, hj⟩ | ⟨hopen, -⟩
    · exact absurd (h.symm.trans hopen) nofun
    · rw [hj]
      exact ⟨j, rfl⟩
    · exact absurd (h.symm.trans hopen) nofun
  obtain ⟨j, hj⟩ := hclaim
  refine ⟨j, ?_⟩
  rw [reserve]
  by_cases hq : stream.queries = 1
  · rw [if_neg (Decidable.not_not.mpr hq), if_pos hq, hj]
  · rw [if_pos hq, if_neg hq]
    rfl

/-- A query call on a closed bridge hands nothing over. -/
theorem handed_askLead_closed (h : s.bridge.closed = true) (stream : Stream) :
    handed (askLead stream) s = none := by
  obtain ⟨j, hr⟩ := run_reserve_closed h stream
  rw [handed, askLead]
  by_cases hq : stream.queries = 1
  · rw [if_pos hq] at hr
    rw [run_bind_ok hr]
    rfl
  · rw [if_neg hq] at hr
    rw [run_bind_error hr]

/-- It answers by its stream alone, and does nothing besides the journal. -/
theorem run_ask_closed (h : s.bridge.closed = true) (send : Sender) (stream : Stream)
    (wait : Value) :
    ∃ j, (ask send stream wait).run s =
      if stream.queries = 1 then (.ok .null, { s with journal := j })
      else (.error (.notOneQuery stream.queries), s) := by
  obtain ⟨j, hr⟩ := run_reserve_closed h stream
  refine ⟨j, ?_⟩
  rw [run_ask, hr]
  by_cases hq : stream.queries = 1
  · rw [if_pos hq, if_pos hq]
  · rw [if_neg hq, if_neg hq]

/-- So does a call that makes its stream first, which may do something to builders. -/
theorem Asks.of_closed {x : Sender → Op Session Value} {make : Op Session Stream}
    {lead : Op Session (Option String)} (hx : Asks x make lead s) (h : s.bridge.closed = true) :
    handed lead s = none ∧ ∀ send, ((x send).run s).1.map .value = answerless (make.run s).1 ∧
      ∃ w, ((x send).run s).2 = { s with toWorkshop := w } := by
  cases hx with
  | refused w hmake hlead hrun =>
      refine ⟨hlead, fun send => ?_⟩
      rw [hrun, hmake]
      exact ⟨rfl, w, rfl⟩
  | @asks stream wait w g hmake hlead hrun =>
      have hclosed : (workshopPart.set w s).bridge.closed = true := h
      refine ⟨hlead.trans (handed_askLead_closed hclosed stream), fun send => ?_⟩
      obtain ⟨j, hask⟩ := run_ask_closed hclosed send stream wait
      rw [hrun, hmake, answerless, hask]
      by_cases hq : stream.queries = 1
      · rw [if_pos hq, if_pos hq]
        exact ⟨rfl, _, rfl⟩
      · rw [if_neg hq, if_neg hq]
        exact ⟨rfl, _, rfl⟩

/-- A query that would be given up is not even sent. -/
theorem abandonedQuery_closed (h : s.bridge.closed = true) (fn args : Value) :
    handed (liftM (queryOf fn args) >>= askLead) s = none := by
  cases hq : queryOf fn args with
  | error f => rfl
  | ok stream => exact handed_askLead_closed h stream

theorem run_upload_stopped (h : s.running = false) (send : Sender) (name : String) :
    ∃ j, (upload send name).run s = (.ok false, { s with journal := j }) := by
  obtain ⟨j, hsay⟩ := run_say .uplink .warning "Uplink is stopped, upload dropped" s
  refine ⟨j, ?_⟩
  have hupload : (upload send name).run s = (say .uplink .warning
      "Uplink is stopped, upload dropped" >>= fun _ => pure false : Op Session Bool).run s := by
    rw [upload, run_state_bind, h]
    rfl
  rw [hupload, run_bind_ok hsay]
  rfl

end Session

/-! ### What becomes of each deed -/

/-- Whether a deed neither reopens the bridge nor sends past the session. -/
def Deed.isManaged : Deed → Bool
  | .reopen | .sendUpload .. => false
  | _ => true

namespace Doing

/-- What becomes of a deed in a stopped session. -/
structure Refused (c : Doing) : Prop where
  /-- Its sender does nothing, as it is not called. -/
  silent : c.deed.inside c.before = [] ∧ c.after.transmissions = c.before.transmissions
  /-- A query returns nothing unless it fails to make a stream with one query, and does nothing
  besides making it. -/
  query : ∀ ds e, c.deed.asking = some (ds, e) →
    c.outcome = answerless (c.deed.makes.run c.before).1 ∧
      ∃ w, c.after = { c.before with toWorkshop := w }
  upload : ∀ name ds e, c.deed = .upload name ds e →
    c.outcome = .ok (.flag false) ∧ ∃ j, c.after = { c.before with journal := j }
  stop : c.deed = .stop →
    c.outcome = .ok .nothing ∧ ∃ j, c.after = { c.before with journal := j }
  /-- Nobody takes a response from telemetry. -/
  telemetry : ∀ raw, c.deed = .telemetry raw →
    ∃ k, c.after.bridge = { c.before.bridge with strayResponses := k }

variable {c : Doing} {s : Session}

theorem asking_refused {ds : List Deed} {e : Ending} (hs : c.before.Stopped)
    (h : c.deed.asking = some (ds, e)) :
    c.deed.inside c.before = [] ∧ c.outcome = answerless (c.deed.makes.run c.before).1 ∧
      ∃ w, c.after = { c.before with toWorkshop := w } := by
  obtain ⟨x, hx, hrun, hinside⟩ := Deed.run_asking h
  obtain ⟨hnone, hclosed⟩ := (hx c.before).of_closed hs.closed
  refine ⟨?_, ?_⟩
  · rw [hinside, meanwhile, hnone]
  · rw [outcome, after, hrun, result_bind_pure, state_bind_pure]
    exact hclosed _

theorem upload_refused (name : String) (ds : List Deed) (e : Ending) (hs : s.Stopped) :
    (Deed.upload name ds e).inside s = [] ∧ ∃ j,
      (Deed.upload name ds e).run.run s = (.ok (.flag false), { s with journal := j }) := by
  obtain ⟨j, h⟩ := run_upload_stopped hs.running (sender (Deed.runAll ds) e) name
  refine ⟨?_, j, ?_⟩
  · rw [Deed.inside, meanwhile, (Session.upload_refused (sender (Deed.runAll ds) e) ds e
      (Or.inl hs.running)).1]
  · rw [Deed.run, run_bind_ok h]
    rfl

theorem stop_refused (hs : s.Stopped) :
    ∃ j, Deed.stop.run.run s = (.ok .nothing, { s with journal := j }) := by
  obtain ⟨j, h⟩ := run_stop_again hs.running
  refine ⟨j, ?_⟩
  rw [Deed.run, run_bind_ok h]
  rfl

theorem telemetry_refused (raw : Value) (hs : s.Stopped) :
    ∃ d j k m, ((Deed.telemetry raw).run.run s).2 = { s with
      decoder := d
      journal := j
      bridge := { s.bridge with strayResponses := k }
      errorCount := m } := by
  rw [Deed.run, state_bind_pure]
  cases hparse : ((s.decoder.parse raw).run s.journal).1 with
  | error f =>
      obtain ⟨j, h⟩ := run_receive_error hparse
      rw [h]
      exact ⟨s.decoder, j, s.bridge.strayResponses, s.errorCount, rfl⟩
  | ok r =>
      obtain ⟨j, h⟩ := run_receive_ok hparse
      rw [h, hearAll_of_free hs.free]
      exact ⟨_, _, _, _, rfl⟩

theorem abandonedQuery_refused (fn args : Value) (ds : List Deed) (e : Ending) (hs : s.Stopped) :
    (Deed.abandonedQuery fn args ds e).inside s = [] ∧
      ((Deed.abandonedQuery fn args ds e).run.run s).2.transmissions = s.transmissions := by
  have hnone : handed (Deed.abandonedQuery fn args ds e).lead s = none :=
    abandonedQuery_closed hs.closed fn args
  have huses := (abandonedQuery_uses (s := s) (Nat.le_refl _) fn args).bind
    (f := fun done => do return Answer.cancelled done (← .state).bridge.isAwaiting)
    fun _ _ => preserves_state.bind fun _ => preserves_pure _
  rw [abandonedQuery_closed hs.closed fn args] at huses
  refine ⟨by rw [Deed.inside, meanwhile, hnone], ?_⟩
  cases huses with
  | silent hrun ht =>
      rw [Deed.run]
      exact (congrArg (fun r => r.2.transmissions) (hrun _)).trans ht.transmissions

/-- No sender is called in a stopped session. -/
theorem silent_of_stopped (hs : c.before.Stopped) (hm : c.deed.isManaged = true) :
    c.deed.inside c.before = [] ∧ c.after.transmissions = c.before.transmissions := by
  rcases c with ⟨d, s⟩
  have hasks {ds : List Deed} {e : Ending} (h : d.asking = some (ds, e)) :
      d.inside s = [] ∧ (⟨d, s⟩ : Doing).after.transmissions = s.transmissions := by
    obtain ⟨hinside, -, w, hafter⟩ := asking_refused (c := ⟨d, s⟩) hs h
    rw [hafter]
    exact ⟨hinside, rfl⟩
  have hquiet (hq : d.isQuiet = true) :
      d.inside s = [] ∧ (⟨d, s⟩ : Doing).after.transmissions = s.transmissions := by
    have hcalm := Deed.run_calm (n := 0) d hq s (.refl s)
    refine ⟨Deed.inside_of_not_sending ?_ s, hcalm.transmissions⟩
    cases d with
    | query | ask | abandonedQuery | askWith | askUnderSettings | sendUpload | upload => cases hq
    | _ => rfl
  cases d with
  | query | ask | askWith | askUnderSettings => exact hasks rfl
  | abandonedQuery fn args ds e => exact abandonedQuery_refused fn args ds e hs
  | upload name ds e =>
      obtain ⟨hinside, j, hrun⟩ := upload_refused name ds e hs
      rw [after, hrun]
      exact ⟨hinside, rfl⟩
  | stop =>
      obtain ⟨j, hrun⟩ := stop_refused hs
      rw [after, hrun]
      exact ⟨rfl, rfl⟩
  | telemetry raw =>
      obtain ⟨d, j, k, m, hrun⟩ := telemetry_refused raw hs
      rw [after, hrun]
      exact ⟨rfl, rfl⟩
  | respond r =>
      rw [after, Deed.run, state_bind_pure]
      exact ⟨rfl, rfl⟩
  | close =>
      rw [after, Deed.run, state_bind_pure]
      exact ⟨rfl, rfl⟩
  | reopen | sendUpload => cases hm
  | _ => exact hquiet rfl

/-- Every managed deed in a stopped session is refused. -/
theorem refused_of_stopped (hs : c.before.Stopped) (hm : c.deed.isManaged = true) :
    c.Refused where
  silent := silent_of_stopped hs hm
  query ds e h := (asking_refused hs h).2
  upload name ds e h := by
    obtain ⟨-, j, hrun⟩ := upload_refused name ds e hs
    rw [outcome, after, h, hrun]
    exact ⟨rfl, j, rfl⟩
  stop h := by
    obtain ⟨j, hrun⟩ := stop_refused hs
    rw [outcome, after, h, hrun]
    exact ⟨rfl, j, rfl⟩
  telemetry raw h := by
    obtain ⟨d, j, k, m, hrun⟩ := telemetry_refused raw hs
    rw [after, h, hrun]
    exact ⟨k, rfl⟩

end Doing

/-! ## A query that is outstanding -/

namespace Session

variable {s u : Session} {stream : Stream} {payload : String} {t : Ticket}

/-- What a query call that hands its payload over has done before: it took the slot. -/
theorem handed_askLead (h : handed (askLead stream) s = some (payload, u)) :
    s.bridge.closed = false ∧
      (reserve stream).run s =
        (.ok (some s.bridge.fates.length), { s with bridge := s.bridge.take }) ∧
      (prepare stream).run { s with bridge := s.bridge.take } = (.ok payload, u) := by
  rw [handed, askLead] at h
  rcases reserve_cases stream s with ⟨hopen, -, hr⟩ | ⟨o, v, hr, -, rfl | ⟨f, rfl⟩⟩
  · refine ⟨hopen, hr, ?_⟩
    rw [run_bind_ok hr] at h
    dsimp only at h
    rcases hp : (prepare stream).run { s with bridge := s.bridge.take } with ⟨f | p, v⟩
    · rw [run_bind_error hp] at h
      cases h
    · rw [run_bind_ok hp] at h
      cases h
      rfl
  · rw [run_bind_ok hr] at h
    cases h
  · rw [run_bind_error hr] at h
    cases h

/-- Then it holds the slot, in a session that runs if it is coherent. -/
theorem outstanding_of_handed (h : handed (askLead stream) s = some (payload, u))
    (hs : s.Coherent) :
    u.bridge.slot = some s.bridge.fates.length ∧ u.running = true ∧
      u.bridge.HeldWhilePending s.bridge.fates.length ∧
      s.bridge.fates.length < u.bridge.fates.length := by
  obtain ⟨hopen, -, hp⟩ := handed_askLead h
  have hb := bridge_prepare stream { s with bridge := s.bridge.take }
  have hr := (prepare_calm (n := 0) stream { s with bridge := s.bridge.take } (.refl _)).running
  rw [hp] at hb hr
  have hrunning : s.running = true := by
    cases hs' : s.running with
    | true => rfl
    | false => exact absurd (hopen.symm.trans (hs hs').1) nofun
  rw [hb]
  refine ⟨slot_take _, hr.trans hrunning, ⟨?_, iff_of_true (slot_take _) (fate_take_self _)⟩, ?_⟩
  · rw [length_take]
    exact Nat.lt_succ_self _
  · rw [length_take]
    exact Nat.lt_succ_self _

/-- A query whose fate is cancelled when its sender has ended returns nothing, or fails as its
sender did. -/
theorem ask_cancelled (h : handed (askLead stream) s = some (payload, u)) (send : Sender)
    (wait : Value)
    (hfate : ((send payload).run u).2.bridge.fate s.bridge.fates.length = .cancelled) :
    ((ask send stream wait).run s).1 = .ok .null ∨
      ∃ f, ((send payload).run u).1 = .error f ∧ ((ask send stream wait).run s).1 = .error f := by
  obtain ⟨-, hr, hp⟩ := handed_askLead h
  obtain ⟨d, hfinish, -⟩ := run_complete_sent (waitOf wait s.bridge) s.bridge.fates.length hp
    (Prod.eta ((send payload).run u)).symm
  rw [run_ask, hr]
  dsimp only
  generalize ((complete send stream (waitOf wait s.bridge) s.bridge.fates.length).run
    { s with bridge := s.bridge.take }).1 = o at hfinish ⊢
  cases hfinish with
  | answered _ hf => exact absurd (hfate.symm.trans hf) nofun
  | abandoned _ _ => exact Or.inl rfl
  | timedOut _ hf _ => exact absurd (hfate.symm.trans hf) nofun
  | overlong _ hf => exact absurd (hfate.symm.trans hf) nofun
  | failed _ => exact Or.inl rfl
  | broken hr =>
      refine Or.inr ⟨_, ?_, rfl⟩
      cases hsent : ((send payload).run u).1 with
      | ok v =>
          rw [hsent] at hr
          cases hr
      | error f =>
          rw [hsent, sentBy] at hr
          split at hr
          · cases hr
          · rw [Except.error.inj hr]

/-- Stopping a session cancels the query that waits. -/
theorem cancelled_by_stop (hs : s.Coherent) (ht : s.bridge.HeldWhilePending t)
    (hfate : (s.bridge.fate t).isAnswered = false) :
    (stop.run s).2.bridge.fate t = .cancelled := by
  have hsince := stop_since (n := t + 1) s
  cases hf : s.bridge.fate t with
  | answered v =>
      rw [hf] at hfate
      cases hfate
  | cancelled =>
      rw [hsince.bridge.settled t (Nat.lt_succ_self t) ht (hf ▸ nofun), hf]
  | pending =>
      have hslot := ht.waits.mpr hf
      have hrunning : s.running = true := by
        cases hr : s.running with
        | true => rfl
        | false => exact absurd (hslot.symm.trans (hs hr).2) nofun
      obtain ⟨-, -, hturn⟩ := run_stop_running hrunning
      generalize (stop.run s).2.bridge = b at hturn ⊢
      cases hturn with
      | cancels hs' =>
          obtain rfl := Option.some.inj (hslot.symm.trans hs')
          exact fate_settle_self ht.taken _
      | shut hs' => exact absurd (hslot.symm.trans hs') nofun

/-- What ends a stop is a stopped session. -/
theorem stopped_of_stop (hs : s.Coherent) : (stop.run s).2.Stopped := by
  cases hr : s.running with
  | true =>
      obtain ⟨-, hstopped, hturn⟩ := run_stop_running hr
      obtain ⟨hclosed, hfree⟩ := closed_of_shut hturn
      exact ⟨hstopped, hclosed, hfree⟩
  | false =>
      obtain ⟨j, h⟩ := run_stop_again hr
      obtain ⟨hclosed, hfree⟩ := hs hr
      rw [h]
      exact ⟨hr, hclosed, hfree⟩

/-- A sender gives what it ends with, whatever is done meanwhile. -/
theorem result_sender (ds : List Deed) (e : Ending) (payload : String) (u : Session) :
    ((sender (Deed.runAll ds) e payload).run u).1 = e.result := by
  have hends := runAll_ends ds u.transmissions.length (transmit payload u)
  rw [sender, run_state_bind, run_update_bind]
  rw [run_bind_ok (Prod.ext hends rfl)]
  rfl

end Session

theorem Doing.after_stop {d : Doing} (h : d.deed = .stop) : d.after = (stop.run d.before).2 := by
  rw [after, h, Deed.run, state_bind_pure]

/-- A query that is outstanding when its session is stopped, and was not answered before, returns
nothing, or fails as its sender does. -/
theorem Doing.outstanding_stopped {c d : Doing} {ds : List Deed} {e : Ending} {payload : String}
    {u : Session} {t : Ticket} (hask : c.deed.asking = some (ds, e)) (hc : c.before.Coherent)
    (hopen : ∀ d ∈ c.deed.inside c.before, d.deed ≠ .reopen)
    (hlead : handed c.deed.lead c.before = some (payload, u)) (ht : u.bridge.slot = some t)
    (hd : d ∈ c.deed.inside c.before) (hstop : d.deed = .stop)
    (hfate : (d.before.bridge.fate t).isAnswered = false) :
    c.outcome = .ok (.value .null) ∨ ∃ f, e = .fails f ∧ c.outcome = .error f := by
  obtain ⟨x, hx, hrun, hinside⟩ := Deed.run_asking hask
  rw [hinside, meanwhile, hlead] at hd hopen
  dsimp only at hd hopen
  cases hx c.before with
  | refused w hmake hnone hrun => exact absurd (hlead.symm.trans hnone) (Option.some_ne_none _)
  | @asks stream wait w g hmake hasks hcall =>
      have hhanded := hasks.symm.trans hlead
      obtain ⟨hslot, hrunning, hheld, hlt⟩ := outstanding_of_handed hhanded hc
      obtain rfl : c.before.bridge.fates.length = t := Option.some.inj (hslot.symm.trans ht)
      -- From the call of the sender to its end everything passes, and the stop is on the way.
      have hpasses := Deed.doings_tracked passes_tracks ds u.transmissions.length
        (transmit payload u) hopen
      rw [← run_sender (Deed.runAll ds) e payload u] at hpasses
      have hbegins := hpasses.begins d hd
      have hcoherent : (transmit payload u).Coherent :=
        fun h => absurd (h.symm.trans hrunning) Bool.false_ne_true
      have hheld' := hbegins.bridge.held _ hlt hheld
      have hcancelled : d.after.bridge.fate c.before.bridge.fates.length = .cancelled := by
        rw [after_stop hstop]
        exact cancelled_by_stop (hbegins.coherent hcoherent) hheld' hfate
      have hafter : d.after.bridge.HeldWhilePending c.before.bridge.fates.length := by
        rw [after_stop hstop]
        exact (stop_since d.before).bridge.held _ (Nat.lt_succ_self _) hheld'
      have hsettled : d.after.bridge.fate c.before.bridge.fates.length ≠ .pending := by
        rw [hcancelled]
        decide
      have hend := (hpasses.rest d hd hstop).bridge.settled _ hlt hafter hsettled
      rw [outcome, hrun, result_bind_pure, hcall]
      rcases ask_cancelled hhanded (sender (Deed.runAll ds) e) wait (hend.trans hcancelled) with
        hnull | ⟨f, hsent, hfails⟩
      · rw [hnull]
        exact Or.inl rfl
      · rw [hfails]
        rw [result_sender] at hsent
        refine Or.inr ⟨f, ?_, rfl⟩
        cases e with
        | gives v => cases hsent
        | fails f' => rw [Except.error.inj hsent]

/-! ## Stopping -/

/-- In every run of deeds in a session that runs, of which none reopens the bridge or sends past
the session:

* every deed that begins behind a stop is refused, wherever in the run and in whosever sender,
* every query that is outstanding at a stop, and was not answered before, returns nothing, or
  fails as its sender does. -/
theorem Deed.stopped_sends_nothing (ds : List Deed) (place : Nat) (s : Session)
    (hrunning : s.running = true)
    (hmanaged : ∀ c ∈ Deed.doings ds place s, c.deed.isManaged = true) :
    (Deed.doings ds place s).Pairwise (fun d c => d.deed = .stop → c.Refused) ∧
    ∀ c ∈ Deed.doings ds place s, ∀ inner e payload u t, c.deed.asking = some (inner, e) →
      handed c.deed.lead c.before = some (payload, u) → u.bridge.slot = some t →
      ∀ d ∈ c.deed.inside c.before, d.deed = .stop →
        (d.before.bridge.fate t).isAnswered = false →
        c.outcome = .ok (.value .null) ∨ ∃ f, e = .fails f ∧ c.outcome = .error f := by
  have hopen : ∀ c ∈ Deed.doings ds place s, c.deed ≠ .reopen := by
    intro c hc h
    have hc' := hmanaged c hc
    rw [h] at hc'
    cases hc'
  have hcoherent : s.Coherent := fun h => absurd (hrunning.symm.trans h) nofun
  have hpasses := Deed.doings_tracked passes_tracks ds place s hopen
  refine ⟨?_, ?_⟩
  · refine hpasses.order.imp_of_mem fun {d c} hd hc hsince hstop => ?_
    have hstopped : d.after.Stopped := by
      rw [Doing.after_stop hstop]
      exact stopped_of_stop ((hpasses.begins d hd).coherent hcoherent)
    have hlater := (hsince hstop).stays hstopped.running
    obtain ⟨hclosed, hfree⟩ := (hpasses.begins c hc).coherent hcoherent hlater
    exact Doing.refused_of_stopped ⟨hlater, hclosed, hfree⟩ (hmanaged c hc)
  · intro c hc inner e payload u t hask hlead ht d hd hstop hfate
    have hinside := fun d hd => hopen d (Deed.doings_closed ds place s c hc d hd)
    exact Doing.outstanding_stopped hask ((hpasses.begins c hc).coherent hcoherent) hinside hlead ht
      hd hstop hfate

/-- A query that is stopped while it is outstanding, with an upload, telemetry and another query
behind the stop. -/
def stoppedQuery : List Deed :=
  [.query (.text "GetPage") .null .null
    [.stop, .upload "F-16" [] (.gives (.bool true)),
      .telemetry (.text "\x7b\"Response\":\"UFC\"\x7d"), .stop] (.gives (.bool true)),
    .query (.text "GetMode") .null .null [] (.gives (.bool true))]

theorem Deed.stopped_sends_nothing_midway :
    (keyed "ENT").running = true ∧
    (∀ c ∈ Deed.doings stoppedQuery 0 (keyed "ENT"), c.deed.isManaged = true) ∧
    ∃ c d rest, Deed.doings stoppedQuery 0 (keyed "ENT") = c :: d :: rest ∧ d.deed = .stop ∧
      c.outcome = .ok (.value .null) ∧ rest.length = 4 ∧ ∀ x ∈ rest, x.Refused := by
  have hmanaged : ∀ c ∈ Deed.doings stoppedQuery 0 (keyed "ENT"), c.deed.isManaged = true := by
    decide +kernel
  obtain ⟨horder, hqueries⟩ := Deed.stopped_sends_nothing stoppedQuery 0 (keyed "ENT") rfl hmanaged
  obtain ⟨c, d, rest, inner, payload, u, hcs, hstop, hlength, hask, hlead, hslot, hinside, hfate⟩ :
      ∃ c d rest inner payload u, Deed.doings stoppedQuery 0 (keyed "ENT") = c :: d :: rest ∧
        d.deed = .stop ∧ rest.length = 4 ∧ c.deed.asking = some (inner, .gives (.bool true)) ∧
        handed c.deed.lead c.before = some (payload, u) ∧ u.bridge.slot = some 0 ∧
        (c.deed.inside c.before).head? = some d ∧ d.before.bridge.fate 0 = .pending :=
    ⟨_, _, _, _, _, _, rfl, rfl, rfl, rfl, rfl, rfl, rfl, rfl⟩
  rw [hcs] at horder hqueries
  have hnull := hqueries c List.mem_cons_self inner _ payload u 0 hask hlead hslot d
    (List.mem_of_mem_head? hinside) hstop (hfate ▸ rfl)
  have hrefused := (List.pairwise_cons.mp (List.pairwise_cons.mp horder).2).1
  refine ⟨rfl, hmanaged, c, d, rest, hcs, hstop, ?_, hlength, fun x hx => hrefused x hx hstop⟩
  refine hnull.resolve_right ?_
  rintro ⟨f, hf, -⟩
  cases hf

/-- Behind a stop, a query call can fail instead of returning nothing: the one of a builder that
has nothing to build. -/
theorem Deed.stopped_query_fails :
    ∃ d c, Deed.doings [.stop, .askUnderSettings (.fresh .query true false .null .null []) .null []
        (.gives (.bool true))] 0 (keyed "ENT") = [d, c] ∧ (keyed "ENT").running = true ∧
      d.deed = .stop ∧ c.deed.asking.isSome = true ∧
      c.outcome = .error (.noQueryFunction "QueryBuilder") :=
  ⟨_, _, rfl, rfl, rfl, rfl, rfl⟩

end Cockpit
