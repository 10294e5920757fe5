import Cockpit.Proofs.Session.Counters

/-!
# Uploads and deliveries

An agent counts the payloads of its uploads that were delivered and those that were not.  A session
counts the uploads whose agents report success.  These are not the same.  An agent whose stream is
empty reports success too, though it hands nothing to its sender.

`Session.Credits` keeps the accounts of a run: what the agents of a session have gained, all
together, is what senders accepted and refused, and the session has gained what senders accepted
and the uploads that were empty.  A step lemma for each deed gives it for all that is done, inside
of senders too.  `Deed.deliveries_balance` reads off when both counts agree: just if no upload was
empty.

Deeds other than uploads leave the accounts to their senders (`Session.SparesBooks`).  This is said
of all senders at once.  So a sender that is made up for the purpose shows what comes before the
call of the real one (`Session.Uses.books_before`) and behind it (`Session.Uses.books_behind`).
-/

namespace Cockpit

open Op Bridge

/-! ## Counts of entries -/

/-- What the counts of all entries of a list come to. -/
def total {κ α : Type} (g : α → Nat) (es : List (κ × α)) : Nat :=
  es.foldr (fun e n => g e.2 + n) 0

theorem total_cons {κ α : Type} (g : α → Nat) (e : κ × α) (es : List (κ × α)) :
    total g (e :: es) = g e.2 + total g es := rfl

/-- If one of the entries, found by its key, counts more, so do all together. -/
theorem total_gain {κ α : Type} [DecidableEq κ] {key : κ} {f : α → α} {g : α → Nat} {n : Nat}
    (hg : ∀ a, g (f a) = g a + n) : ∀ {es : List (κ × α)}, (es.map Prod.fst).Nodup →
      key ∈ es.map Prod.fst →
      total g (es.map fun e => if e.1 = key then (e.1, f e.2) else e) = total g es + n
  | [], _, h => absurd h List.not_mem_nil
  | (k, a) :: es, hnodup, hmem => by
      obtain ⟨hfresh, hrest⟩ := List.nodup_cons.mp hnodup
      rw [List.map_cons, total_cons, total_cons]
      by_cases hk : k = key
      · have hkeep : (es.map fun e => if e.1 = key then (e.1, f e.2) else e) = es := by
          refine (List.map_congr_left fun e he => if_neg ?_).trans (List.map_id es)
          exact fun hkey => hfresh (List.mem_map.mpr ⟨e, he, hkey.trans hk.symm⟩)
        rw [if_pos hk, hkeep, hg, Nat.add_right_comm]
      · have hkey : key ∈ es.map Prod.fst :=
          (List.mem_cons.mp hmem).resolve_left fun h => hk h.symm
        rw [if_neg hk, total_gain hg hrest hkey, Nat.add_assoc]

namespace Session

variable {α : Type}

/-! ## What other deeds leave alone -/

/-- The books of a session. -/
structure Books where
  transmissions : List Transmission
  agents : List (String × Agent)
  uploadsSent : Nat

/-- What a session keeps of its uploads, and the payloads that were handed over. -/
def books (s : Session) : Books := ⟨s.transmissions, s.agents, s.uploadsSent⟩

variable {F : Books → Prop}

theorem workshop_books (x : Op Workshop α) : (x.on workshopPart).Preserves fun s => F s.books :=
  preserves_on x fun _ _ h => h

theorem line_books (x : Op Line α) : (x.on linePart).Preserves fun s => F s.books :=
  preserves_on x fun _ _ h => h

theorem config_books (x : Op Config α) : (x.on configPart).Preserves fun s => F s.books :=
  preserves_on x fun _ _ h => h

theorem say_books (source : Log.Source) (level : Log.Level) (text : String) :
    (say source level text).Preserves fun s => F s.books := workshop_books _

theorem findAgent_books (name : String) : (findAgent name).Preserves fun s => F s.books := by
  refine preserves_state.bind fun s => ?_
  cases s.agents.lookup name with
  | none => exact preserves_stop _
  | some a => exact preserves_pure a

theorem prepareUpload_books (name : String) (context : Value) :
    (prepareUpload name context).Preserves fun s => F s.books := by
  refine Preserves.bind ?_ fun stream => preserves_ite ?_ ?_
  · exact (findAgent_books name).bind fun _ => workshop_books _
  · exact (say_books _ _ _).bind fun _ => preserves_pure _
  · refine (preserves_liftM _).bind fun payload => (findAgent_books name).bind fun a => ?_
    exact preserves_ite ((say_books _ _ _).bind fun _ => preserves_pure _) (preserves_pure _)

theorem receive_books (raw : Value) : (receive raw).Preserves fun s => F s.books := by
  refine preserves_state.bind fun s => (workshop_books _).bind fun r => ?_
  refine Preserves.bind (preserves_update fun _ h => h) fun _ => ?_
  cases r.2 with
  | some p => exact (line_books _).bind fun _ => preserves_pure _
  | none =>
      refine preserves_ite ?_ (preserves_pure _)
      exact Preserves.bind (preserves_update fun _ h => h) fun _ => preserves_pure _

theorem stop_books : stop.Preserves fun s => F s.books := by
  refine preserves_state.bind fun s => preserves_ite (say_books _ _ _) ?_
  refine (say_books _ _ _).bind fun _ => ?_
  refine Preserves.bind (preserves_update fun _ h => h) fun _ => ?_
  exact (line_books _).bind fun _ => say_books _ _ _

end Session

open Session in
/-- What does not send leaves the books alone. -/
theorem Deed.run_books {F : Session.Books → Prop} {d : Deed} (hd : d.isSending = false) :
    d.run.Preserves fun s => F s.books := by
  cases d with
  | query | ask | abandonedQuery | askWith | askUnderSettings | sendUpload | upload => cases hd
  | respond r => exact (line_books _).bind fun _ => preserves_pure _
  | close => exact (line_books _).bind fun _ => preserves_pure _
  | reopen => exact (line_books _).bind fun _ => preserves_pure _
  | lineState => exact preserves_state.bind fun _ => preserves_pure _
  | builderStep t step =>
      exact (workshop_books _).bind fun id => (workshop_books _).bind fun _ => preserves_pure _
  | inspect t =>
      exact (workshop_books _).bind fun id => (workshop_books _).bind fun _ => preserves_pure _
  | composeStream agent context =>
      refine Preserves.bind ?_ fun stream => (preserves_liftM _).bind fun _ => preserves_pure _
      exact (findAgent_books agent).bind fun _ => workshop_books _
  | agentStatus agent => exact (findAgent_books agent).bind fun _ => preserves_pure _
  | telemetry raw => exact (receive_books raw).bind fun _ => preserves_pure _
  | stop => exact stop_books.bind fun _ => preserves_pure _
  | strictActions => exact preserves_state.bind fun _ => preserves_pure _
  | configure act => exact (config_books _).bind fun _ => preserves_pure _
  | fail f => exact preserves_stop f

/-- Payloads that were handed over stay. -/
theorem Deed.transmissions_grow : Deed.Tracks fun s _ t =>
    s.transmissions.length ≤ t.transmissions.length where
  refl s := Nat.le_refl _
  append h h' := Nat.le_trans h h'
  note place r h := by
    rw [Session.note, List.length_modify]
    exact h
  transmit payload h := by
    rw [Session.transmit, List.length_append] at h
    exact Nat.le_of_succ_le h
  before hu h := hu.transmissions ▸ h
  behind h hu := hu.transmissions ▸ h
  alone c hc := Deed.run_books (F := fun b =>
    c.before.transmissions.length ≤ b.transmissions.length) hc c.before (Nat.le_refl _)
  enter {c cs t} _ h := by
    rcases c.report with _ | _ | _ | _
    · exact h
    · exact h
    · exact h
    · exact h

namespace Session

variable {α β : Type} {n : Ticket} {s t u v : Session} {payload : String} {stream : Stream}
  {wait : Value} {id : BuilderId} {x : Sender → Op Session α} {ds : List Deed} {e : Ending}

/-- A sender has handed its payload over. -/
theorem sender_transmits (ds : List Deed) (e : Ending) (payload : String) (u : Session) :
    u.transmissions.length <
      ((sender (Deed.runAll ds) e payload).run u).2.transmissions.length := by
  have h := Deed.doings_tracked Deed.transmissions_grow ds u.transmissions.length
    (transmit payload u)
  rw [run_sender]
  refine Nat.lt_of_lt_of_le ?_ h
  rw [transmit, List.length_append]
  exact Nat.lt_succ_self _

/-- Whether an operation leaves the books to its sender: it keeps everything about the books that
its sender keeps, whatever the sender. -/
def SparesBooks (x : Sender → Op Session α) : Prop :=
  ∀ (F : Books → Prop) (send : Sender),
    (∀ payload, (send payload).Preserves fun s => F s.books) →
      (x send).Preserves fun s => F s.books

theorem SparesBooks.bind (hx : SparesBooks x) {f : α → Sender → Op Session β}
    (hf : ∀ a, SparesBooks (f a)) : SparesBooks fun send => x send >>= fun a => f a send :=
  fun F send hs => (hx F send hs).bind fun a => hf a F send hs

theorem deliver_spares (payload : String) (source : Log.Source) (what : String) :
    SparesBooks fun send => deliver send payload source what := by
  intro F send hs
  refine Preserves.recover ?_ fun f => ?_
  · exact (hs payload).bind fun _ => preserves_pure _
  · exact (say_books _ _ _).bind fun _ => preserves_pure _

theorem deliverQuery_spares (stream : Stream) :
    SparesBooks fun send => deliverQuery send stream := by
  intro F send hs
  have hdeliver payload := deliver_spares payload .queryBridge "query" F send hs
  refine (preserves_liftM _).bind fun payload => preserves_state.bind fun s => ?_
  refine preserves_ite ?_ (hdeliver payload)
  exact (line_books _).bind fun _ => hdeliver payload

theorem ask_spares (stream : Stream) (wait : Value) :
    SparesBooks fun send => ask send stream wait := by
  intro F send hs
  refine preserves_ite (preserves_stop _) (preserves_state.bind fun s => ?_)
  refine (line_books _).bind fun t => ?_
  cases t with
  | none => exact preserves_pure _
  | some t =>
      refine Preserves.ensure ?_ fun _ h => h
      exact (deliverQuery_spares stream F send hs).bind fun _ =>
        preserves_ite (line_books _) (line_books _)

theorem query_spares (fn args wait : Value) : SparesBooks fun send => query send fn args wait :=
  fun F send hs => (preserves_liftM _).bind fun stream => ask_spares stream wait F send hs

theorem abandonedQuery_spares (fn args : Value) :
    SparesBooks fun send => abandonedQuery send fn args := by
  intro F send hs
  refine (preserves_liftM _).bind fun stream => (line_books _).bind fun t => ?_
  cases t with
  | none => exact preserves_pure _
  | some t =>
      refine Preserves.ensure ?_ fun _ h => h
      refine (deliverQuery_spares stream F send hs).bind fun _ => preserves_ite ?_ ?_
      · have hrest (waiting : Bool) : (do
            let _ ← (Line.conclude t .null).on linePart
            return waiting : Op Session Bool).Preserves fun s => F s.books :=
          (line_books _).bind fun _ => preserves_pure _
        refine preserves_state.bind fun s => preserves_ite ?_ (hrest _)
        exact (line_books _).bind fun _ => hrest _
      · exact (line_books _).bind fun _ => preserves_pure _

theorem askWith_spares (id : BuilderId) (wait : Value) :
    SparesBooks fun send => askWith send id wait := by
  intro F send hs
  refine (workshop_books _).bind fun b => ?_
  refine preserves_ite (preserves_stop _) (preserves_ite (preserves_stop _) ?_)
  have hrest : (do
      let stream ← (Workshop.read id Builder.stream).on workshopPart
      say .queryBuilder .debug s!"{b.kind.name} submitting {stream.length} commands"
      ask send stream wait : Op Session Value).Preserves fun s => F s.books :=
    (workshop_books _).bind fun stream => (say_books _ _ _).bind fun _ =>
      ask_spares stream wait F send hs
  exact preserves_ite ((workshop_books _).bind fun _ => hrest) hrest

theorem askUnderSettings_spares (id : BuilderId) (wait : Value) :
    SparesBooks fun send => askUnderSettings send id wait := by
  intro F send hs
  refine (workshop_books _).bind fun _ => (workshop_books _).bind fun strict => ?_
  refine preserves_state.bind fun s => (workshop_books _).bind fun _ => ?_
  exact (askWith_spares id wait F send hs).ensure fun _ h => h

/-! ### Before and behind a sender -/

/-- A sender that ends in the same way wherever it is called. -/
def fixedSender (back : Except Fault Value × Session) : Sender := fun _ _ => back

open Classical in
/-- A sender that does nothing in a session with certain books, and hands something over in every
other one. -/
noncomputable def markingSender (b : Books) : Sender := fun _ => do
  let s ← .state
  if s.books = b then return .null
  else
    .update (transmit "")
    return .null

theorem markingSender_keeps (b : Books) (payload : String) :
    (markingSender b payload).Preserves fun s => s.books = b := by
  intro s hs
  rw [markingSender, run_state_bind, if_pos hs]
  exact hs

theorem run_markingSender {b : Books} (h : s.books ≠ b) (payload : String) :
    (markingSender b payload).run s = (.ok .null, transmit "" s) := by
  rw [markingSender, run_state_bind, if_neg h]
  rfl

/-- If an operation that leaves the books to its sender does not call it, the books stay. -/
theorem Uses.books_silent (hx : Uses n x s none) (hb : SparesBooks x) (send : Sender) :
    ((x send).run s).2.books = s.books := by
  cases hx with
  | silent hrun _ =>
      rw [hrun send, ← hrun fun _ => pure .null]
      exact hb (· = s.books) _ (fun _ => preserves_pure _) s rfl

/-- Else the books stay until its sender is called.  If they did not, the sender could tell, and
hand something over, though it leaves the books alone in which the operation began. -/
theorem Uses.books_before (hx : Uses n x s (some (payload, u))) (hb : SparesBooks x) :
    u.books = s.books := by
  cases hx with
  | once hrun hu hrest =>
      by_contra hne
      have hbooks := hb (· = s.books) _ (markingSender_keeps s.books) s rfl
      have hstay : ((x (markingSender s.books)).run s).2.transmissions = s.transmissions :=
        congrArg Books.transmissions hbooks
      have hsent := (hrest ((markingSender s.books payload).run u)).transmissions
      rw [← hrun, hstay, run_markingSender hne, transmit, hu.transmissions] at hsent
      exact List.cons_ne_nil _ _ (List.self_eq_append_right.mp hsent)

/-- What comes behind leaves them as the sender left them, if it handed something over. -/
theorem Uses.books_behind (hx : Uses n x s (some (payload, u))) (hb : SparesBooks x)
    {send : Sender} {back : Except Fault Value × Session} (hback : (send payload).run u = back)
    (hsent : back.2.transmissions ≠ s.transmissions) :
    ((x send).run s).2.books = back.2.books := by
  cases hx with
  | once hrun hu hrest =>
      have hfixed : (x send).run s = (x (fixedSender back)).run s := by
        rw [hrun, hrun, hback]
        rfl
      have hbooks := hb (fun b => b = s.books ∨ b = back.2.books) (fixedSender back)
        (fun _ _ _ => Or.inr rfl) s (Or.inl rfl)
      rw [← hfixed] at hbooks
      -- what was handed over is still there at the end, so the books are not those from before
      refine hbooks.resolve_left fun h => hsent ?_
      have hstay : ((x send).run s).2.transmissions = s.transmissions :=
        congrArg Books.transmissions h
      rw [← hstay, hrun, hback]
      exact (hrest back).transmissions.symm

/-! ## Gains -/

/-- The uploads that the agents of a session count as sent, all together. -/
def agentsSent (s : Session) : Nat := total Agent.uploadsSent s.agents

/-- Those that they count as failures. -/
def agentsFailed (s : Session) : Nat := total Agent.uploadFailures s.agents

/-- Whether the agents of a session have different names. -/
def Distinct (s : Session) : Prop := (s.agents.map Prod.fst).Nodup

/-- What a session and its agents have gained between two sessions. -/
structure Gains (s t : Session) (sent failed uploads : Nat) : Prop where
  names : t.agents.map Prod.fst = s.agents.map Prod.fst
  sent_eq : t.agentsSent = s.agentsSent + sent
  failed_eq : t.agentsFailed = s.agentsFailed + failed
  uploads_eq : t.uploadsSent = s.uploadsSent + uploads

variable {sent failed uploads sent' failed' uploads' : Nat} {name : String}

namespace Gains

theorem refl (s : Session) : Gains s s 0 0 0 := ⟨rfl, rfl, rfl, rfl⟩

theorem trans (h : Gains s t sent failed uploads) (h' : Gains t u sent' failed' uploads') :
    Gains s u (sent + sent') (failed + failed') (uploads + uploads') where
  names := h'.names.trans h.names
  sent_eq := by rw [h'.sent_eq, h.sent_eq, Nat.add_assoc]
  failed_eq := by rw [h'.failed_eq, h.failed_eq, Nat.add_assoc]
  uploads_eq := by rw [h'.uploads_eq, h.uploads_eq, Nat.add_assoc]

theorem of_books (h : t.books = s.books) : Gains s t 0 0 0 := by
  have hagents : t.agents = s.agents := congrArg Books.agents h
  have huploads : t.uploadsSent = s.uploadsSent := congrArg Books.uploadsSent h
  exact ⟨congrArg _ hagents, by rw [agentsSent, agentsSent, hagents, Nat.add_zero],
    by rw [agentsFailed, agentsFailed, hagents, Nat.add_zero], huploads⟩

/-- Nothing is gained before something. -/
theorem nothing_trans (h : Gains s t 0 0 0) (h' : Gains t u sent failed uploads) :
    Gains s u sent failed uploads := by
  have := h.trans h'
  rwa [Nat.zero_add, Nat.zero_add, Nat.zero_add] at this

/-- Nothing is gained after something. -/
theorem trans_nothing (h : Gains s t sent failed uploads) (h' : Gains t u 0 0 0) :
    Gains s u sent failed uploads := h.trans h'

theorem distinct (h : Gains s t sent failed uploads) (hs : s.Distinct) : t.Distinct := by
  rw [Distinct, h.names]
  exact hs

theorem mem_names (h : Gains s t sent failed uploads) (hname : name ∈ s.agents.map Prod.fst) :
    name ∈ t.agents.map Prod.fst := h.names ▸ hname

end Gains

theorem names_changeAgent (name : String) (f : Agent → Agent) (s : Session) :
    (changeAgent name f s).agents.map Prod.fst = s.agents.map Prod.fst := by
  rw [changeAgent, List.map_map]
  refine List.map_congr_left fun e _ => ?_
  rw [Function.comp_apply]
  split <;> rfl

/-- What an agent gains, its session gains. -/
theorem changeAgent_gains (hs : s.Distinct) (hname : name ∈ s.agents.map Prod.fst)
    {f : Agent → Agent} (hsent : ∀ a, (f a).uploadsSent = a.uploadsSent + sent)
    (hfailed : ∀ a, (f a).uploadFailures = a.uploadFailures + failed) :
    Gains s (changeAgent name f s) sent failed 0 where
  names := names_changeAgent name f s
  sent_eq := total_gain hsent hs hname
  failed_eq := total_gain hfailed hs hname
  uploads_eq := rfl

theorem say_gains (source : Log.Source) (level : Log.Level) (text : String) (s : Session) :
    Gains s ((say source level text).run s).2 0 0 0 :=
  .of_books (say_books (F := (· = s.books)) source level text s rfl)

/-! ## Uploads -/

/-- How often a result says that something was delivered, or that it was not. -/
def tally (b : Bool) : Except Fault Bool → Nat
  | .ok b' => if b' = b then 1 else 0
  | .error _ => 0

/-- An agent counts what it is told about its payload. -/
theorem settleUpload_gains (hs : s.Distinct) (hname : name ∈ s.agents.map Prod.fst)
    (stream : Stream) (payload : String) (b : Bool) :
    ∃ t, (settleUpload name stream payload b).run s = (.ok b, t) ∧
      Gains s t (tally true (.ok b)) (tally false (.ok b)) 0 := by
  cases b with
  | true =>
      exact ⟨_, rfl, (changeAgent_gains hs hname (fun _ => rfl) fun _ => rfl).trans_nothing
        (say_gains _ _ _ _)⟩
  | false =>
      exact ⟨_, rfl, (changeAgent_gains hs hname (fun _ => rfl) fun _ => rfl).trans_nothing
        (say_gains _ _ _ _)⟩

/-- An agent reports and counts what the end of its sender says of the payload. -/
theorem concludeUpload_gains (hs : s.Distinct) (hname : name ∈ s.agents.map Prod.fst)
    (stream : Stream) (payload : String) (back : Except Fault Value) :
    ∃ t, (concludeUpload name stream payload back).run s = (sentBy back, t) ∧
      Gains s t (tally true (sentBy back)) (tally false (sentBy back)) 0 := by
  have hbooks := deliver_spares payload .uploadAgent "upload" (· = s.books) (fun _ => liftM back)
    (fun _ => preserves_liftM back) s rfl
  have hresult := (run_deliver (fun _ => liftM back) payload .uploadAgent "upload" s).1
  rcases hd : (deliver (fun _ => liftM back) payload .uploadAgent "upload").run s with ⟨r, u⟩
  rw [hd] at hbooks hresult
  obtain rfl : r = sentBy back := hresult
  have hu : Gains s u 0 0 0 := .of_books hbooks
  rw [concludeUpload]
  rcases hr : sentBy back with f | b
  · rw [hr] at hd
    exact ⟨u, run_bind_error hd, hu⟩
  · rw [hr] at hd
    obtain ⟨t, hrun, ht⟩ := settleUpload_gains (hu.distinct hs) (hu.mem_names hname) stream
      payload b
    exact ⟨t, (run_bind_ok hd).trans hrun, hu.nothing_trans ht⟩

/-- Whether an agent composes an empty stream. -/
def composesNothing (name : String) (context : Value) (s : Session) : Bool :=
  match ((composeStream name context).run s).1 with
  | .ok [] => true
  | _ => false

/-- Then it has nothing to hand over, and reports success all the same. -/
theorem composesNothing_eq (name : String) (context : Value) (s : Session) :
    composesNothing name context s =
      match ((prepareUpload name context).run s).1 with
      | .ok none => true
      | _ => false := by
  rw [composesNothing, prepareUpload, run_bind]
  rcases (composeStream name context).run s with ⟨f | _ | ⟨c, cs⟩, u⟩
  · rfl
  · rfl
  -- a stream that is not empty is framed, and then there is something to hand over
  · have hsome : (do
        let payload ← Stream.framed (c :: cs)
        if (← findAgent name).logStreams then
          say .uploadAgent .debug s!"Upload stream ({(c :: cs).length} commands): {payload}"
        return some (c :: cs, payload) : Op Session (Option (Stream × String))).Yields
          fun ready => ready.isSome = true :=
      yields_bind fun payload => yields_bind fun a =>
        yields_ite (yields_bind fun _ => yields_pure rfl) (yields_pure rfl)
    symm
    dsimp only
    split
    · rename_i h
      cases hsome u none _ (Prod.ext h rfl)
    · rfl

end Session

/-! ## Accounts -/

/-- Whether a sender accepts its payload. -/
def Ending.accepts : Ending → Bool
  | .gives v => v.isSet
  | .fails _ => false

namespace Doing

/-- Whether a doing is an upload that hands its payload over to a sender who accepts it. -/
def isAccepted (c : Doing) : Bool :=
  match c.deed with
  | .upload _ _ e => (Session.handed c.deed.lead c.before).isSome && e.accepts
  | _ => false

/-- Whether a doing is an upload that a session takes and whose agent composes an empty stream. -/
def isEmptyUpload (c : Doing) : Bool :=
  match c.deed with
  | .upload name _ _ => c.before.running && (c.before.agents.lookup name).any fun a =>
      Session.composesNothing name .null
        (Session.tighten name (a.strict || c.before.strictActions) c.before)
  | _ => false

/-- Whether a doing makes an agent send past its session. -/
def isDirect (c : Doing) : Bool :=
  match c.deed with
  | .sendUpload .. => true
  | _ => false

variable {c : Doing}

theorem isAccepted_of_unhanded (h : Session.handed c.deed.lead c.before = none) :
    c.isAccepted = false := by
  rw [isAccepted, h]
  split <;> rfl

theorem toNat_isFailedUpload {r : Except Fault Bool} (h : c.report = some r) :
    c.isFailedUpload.toNat = Session.tally false r := by
  rw [isFailedUpload, h]
  rcases r with _ | _ | _ <;> rfl

end Doing

namespace Session

variable {s t u v : Session} {c : Doing} {cs cs' : List Doing} {sent failed uploads : Nat}
  {ds : List Deed} {e : Ending} {name : String} {a : Agent}

theorem toNat_accepts (e : Ending) : e.accepts.toNat = tally true (sentBy e.result) := by
  cases e with
  | gives v =>
      rw [Ending.accepts, Ending.result, sentBy]
      cases v.isSet <;> rfl
  | fails f =>
      rw [Ending.accepts, Ending.result, sentBy]
      split <;> rfl

/-- Whether the gains between two sessions are what comes of some doings. -/
def Credits (s : Session) (cs : List Doing) (t : Session) : Prop :=
  Gains s t (cs.countP Doing.isAccepted) (cs.countP Doing.isFailedUpload)
    (cs.countP Doing.isAccepted + cs.countP Doing.isEmptyUpload)

namespace Credits

theorem append (h : Credits s cs t) (h' : Credits t cs' u) : Credits s (cs ++ cs') u := by
  have := Gains.trans h h'
  rwa [Nat.add_add_add_comm, ← List.countP_append, ← List.countP_append,
    ← List.countP_append] at this

/-- What comes of a doing is gained after what is done inside of it. -/
theorem enter (h : Credits c.before cs u) (hu : Gains u t sent failed uploads)
    (hsent : c.isAccepted.toNat = sent) (hfailed : c.isFailedUpload.toNat = failed)
    (huploads : c.isAccepted.toNat + c.isEmptyUpload.toNat = uploads) :
    Credits c.before (c :: cs) t := by
  have hcount (p : Doing → Bool) : (c :: cs).countP p = cs.countP p + (p c).toNat := by
    rw [List.countP_cons]
    cases p c <;> rfl
  have := Gains.trans h hu
  subst hsent hfailed huploads
  rwa [Nat.add_add_add_comm, ← hcount, ← hcount, ← hcount] at this

/-- Nothing comes of what no session takes as an upload. -/
theorem pass (h : Credits c.before cs u) (hu : Gains u t 0 0 0) (hsent : c.isAccepted = false)
    (hempty : c.isEmptyUpload = false) (hreport : c.report = none) :
    Credits c.before (c :: cs) t := by
  refine h.enter hu ?_ ?_ ?_
  · rw [hsent]
    rfl
  · rw [Doing.isFailedUpload, hreport]
    rfl
  · rw [hsent, hempty]
    rfl

/-- A session gains what its agent reports of an upload that hands nothing over. -/
theorem unhanded {r : Except Fault Bool} (hlead : handed c.deed.lead c.before = none)
    (hreport : c.report = some r) (hr : tally false r = 0)
    (hempty : c.isEmptyUpload.toNat = tally true r)
    (ht : Gains c.before t 0 0 (tally true r)) : Credits c.before [c] t := by
  refine Credits.enter (Gains.refl c.before) ht ?_ ?_ ?_
  · rw [Doing.isAccepted_of_unhanded hlead]
    rfl
  · rw [Doing.toNat_isFailedUpload hreport, hr]
  · rw [Doing.isAccepted_of_unhanded hlead, hempty]
    exact Nat.zero_add _

/-- A session and its agent gain what the sender of an upload says of the payload. -/
theorem handedOver {p : String × Session} (hd : c.deed = .upload name ds e)
    (hlead : handed c.deed.lead c.before = some p) (hempty : c.isEmptyUpload = false)
    (hreport : c.report = some (sentBy e.result)) (h : Credits c.before cs u)
    (hu : Gains u t (tally true (sentBy e.result)) (tally false (sentBy e.result))
      (tally true (sentBy e.result))) : Credits c.before (c :: cs) t := by
  have haccepted : c.isAccepted.toNat = tally true (sentBy e.result) := by
    rw [← toNat_accepts, Doing.isAccepted, hlead]
    simp only [hd, Option.isSome_some, Bool.true_and]
  refine h.enter hu haccepted (Doing.toNat_isFailedUpload hreport) ?_
  rw [haccepted, hempty]
  rfl

end Credits

/-! ### Steps -/

/-- Whether deeds are credited, in sessions whose agents have different names, if no agent sends
past its session. -/
def CreditsAll (ds : List Deed) : Prop := ∀ place s, s.Distinct →
  (∀ c ∈ Deed.doings ds place s, c.isDirect = false) →
    Credits s (Deed.doings ds place s) ((Deed.runAll ds place).run s).2

/-- What a sender does is credited. -/
theorem sender_credits (hin : CreditsAll ds) (e : Ending) (payload : String) (hu : u.Distinct)
    (hdirect : ∀ c ∈ Deed.doings ds u.transmissions.length (transmit payload u),
      c.isDirect = false) :
    ∃ v, (sender (Deed.runAll ds) e payload).run u = (e.result, v) ∧
      Credits u (Deed.doings ds u.transmissions.length (transmit payload u)) v := by
  have htransmit : Gains u (transmit payload u) 0 0 0 := ⟨rfl, rfl, rfl, rfl⟩
  have hrun := hin u.transmissions.length (transmit payload u) hu hdirect
  have hends := runAll_ends ds u.transmissions.length (transmit payload u)
  refine ⟨_, ?_, htransmit.nothing_trans hrun⟩
  rw [sender, run_state_bind, run_update_bind]
  exact run_bind_ok (Prod.ext hends rfl)

/-- A deed that leaves the books to its sender is credited with what is done inside of it. -/
theorem Uses.credits {α : Type} {n : Ticket} {x : Sender → Op Session α} {d : Deed}
    (hin : CreditsAll ds) (hx : Uses n x s (handed d.lead s)) (hb : SparesBooks x)
    (hsent : (⟨d, s⟩ : Doing).isAccepted = false)
    (hempty : (⟨d, s⟩ : Doing).isEmptyUpload = false) (hreport : (⟨d, s⟩ : Doing).report = none)
    (hs : s.Distinct)
    (hdirect : ∀ c ∈ (⟨d, s⟩ : Doing) :: Doing.meanwhile (Deed.doings ds) d s, c.isDirect = false)
    (e : Ending) :
    Credits s (⟨d, s⟩ :: Doing.meanwhile (Deed.doings ds) d s)
      ((x (sender (Deed.runAll ds) e)).run s).2 := by
  rw [Doing.meanwhile] at hdirect ⊢
  rcases hh : handed d.lead s with _ | ⟨payload, u⟩
  · rw [hh] at hx
    exact Credits.pass (c := ⟨d, s⟩) (Gains.refl s) (.of_books (hx.books_silent hb _)) hsent hempty
      hreport
  · rw [hh] at hx hdirect
    have hu : Gains s u 0 0 0 := .of_books (hx.books_before hb)
    obtain ⟨v, hv, hcredits⟩ := sender_credits hin e payload (hu.distinct hs)
      fun c hc => hdirect c (List.mem_cons_of_mem _ hc)
    have hmore : v.transmissions ≠ s.transmissions := by
      intro h
      have hgrown := sender_transmits ds e payload u
      have hsame : u.transmissions = s.transmissions :=
        congrArg Books.transmissions (hx.books_before hb)
      rw [hv, hsame, h] at hgrown
      exact Nat.lt_irrefl _ hgrown
    exact Credits.pass (c := ⟨d, s⟩) (hu.nothing_trans hcredits)
      (.of_books (hx.books_behind hb hv hmore)) hsent hempty hreport

/-! ### Uploads -/

/-- A session counts what its agent reports as delivered. -/
theorem counted_gains (r : Except Fault Bool) (s : Session) :
    Gains s (counted (some r) s) 0 0 (tally true r) := by
  rcases r with _ | _ | _
  · exact ⟨rfl, rfl, rfl, rfl⟩
  · exact ⟨rfl, rfl, rfl, rfl⟩
  · exact ⟨rfl, rfl, rfl, rfl⟩

/-- What an agent gains by an upload and what it reports, and so its session. -/
theorem upload_gains {send : Sender} {r : Except Fault Bool} (hs : u.Distinct)
    (hname : name ∈ u.agents.map Prod.fst) (hr : s.running = true)
    (ha : s.agents.lookup name = some a)
    (hrun :
      (sendUpload send name .null).run (tighten name (a.strict || s.strictActions) s) = (r, v))
    (hv : Gains u v sent failed 0) :
    report send name s = some r ∧
      Gains u ((upload send name).run s).2 sent failed (tally true r) := by
  have hreport : report send name s = some r := by
    rw [report, if_pos hr, ha, Option.map_some, hrun]
  refine ⟨hreport, ?_⟩
  rw [run_upload_taken send hr ha, hreport, run_update_bind, run_ensure, hrun]
  have htight : Gains v (tighten name a.strict v) 0 0 0 :=
    changeAgent_gains (hv.distinct hs) (hv.mem_names hname) (fun _ => rfl) fun _ => rfl
  have := (hv.trans_nothing htight).trans (counted_gains r (tighten name a.strict v))
  rwa [Nat.zero_add] at this

/-- An upload that is not taken, or has no agent, gains nothing. -/
theorem upload_refused_gains (send : Sender)
    (h : s.running = false ∨ s.agents.lookup name = none) :
    Gains s ((upload send name).run s).2 0 0 0 := by
  rw [upload, run_state_bind]
  cases hr : s.running with
  | false => exact say_gains _ _ _ s
  | true =>
      have hnone : s.agents.lookup name = none := h.resolve_left (by rw [hr]; decide)
      have hfind : (findAgent name).run s = (.error (.missingKey name), s) := by
        rw [findAgent, run_state_bind, hnone]
        rfl
      simp only [Bool.not_true, Bool.false_eq_true, if_false, run_bind_error hfind]
      exact .refl s

/-- An upload hands nothing over and does not report a failure, or its sender is called once. -/
theorem sendUpload_cases (name : String) (context : Value) (s : Session) :
    (∃ r u, handed (loadLead name context) s = none ∧
      (∀ send, (sendUpload send name context).run s = (r, u)) ∧ tally false r = 0 ∧
        (composesNothing name context s).toNat = tally true r ∧ Gains s u 0 0 0) ∨
    ∃ stream payload u, handed (loadLead name context) s = some (payload, u) ∧
      (∀ send, (sendUpload send name context).run s =
        (concludeUpload name stream payload ((send payload).run u).1).run
          ((send payload).run u).2) ∧
        composesNothing name context s = false ∧ Gains s u 0 0 0 := by
  have hgains := Gains.of_books (prepareUpload_books (F := (· = s.books)) name context s rfl)
  simp only [handed, loadLead, sendUpload_eq, composesNothing_eq]
  rcases hp : (prepareUpload name context).run s with ⟨f | _ | ⟨stream, payload⟩, u⟩
  all_goals rw [hp] at hgains
  · rw [run_bind_error hp]
    exact .inl ⟨.error f, u, rfl, fun send => run_bind_error hp, rfl, rfl, hgains⟩
  · rw [run_bind_ok hp]
    exact .inl ⟨.ok true, u, rfl, fun send => run_bind_ok hp, rfl, rfl, hgains⟩
  · rw [run_bind_ok hp]
    refine .inr ⟨stream, payload, u, rfl, fun send => ?_, rfl, hgains⟩
    rw [run_bind_ok hp, concludeUpload, run_bind, run_bind, deliver_once]

/-- An upload that is not taken is credited. -/
theorem upload_refused_credits (name : String) (ds : List Deed) (e : Ending)
    (h : s.running = false ∨ s.agents.lookup name = none) :
    Credits s (⟨.upload name ds e, s⟩ :: Doing.meanwhile (Deed.doings ds) (.upload name ds e) s)
      ((upload (sender (Deed.runAll ds) e) name).run s).2 := by
  obtain ⟨hnone, hreport, -⟩ := upload_refused (sender (Deed.runAll ds) e) ds e h
  have hempty : (⟨.upload name ds e, s⟩ : Doing).isEmptyUpload = false := by
    rw [Doing.isEmptyUpload]
    rcases h with h | h
    · simp only [h, Bool.false_and]
    · simp only [h, Option.any_none, Bool.and_false]
  rw [Doing.meanwhile, hnone]
  exact Credits.pass (c := ⟨.upload name ds e, s⟩) (Gains.refl s) (upload_refused_gains _ h)
    (Doing.isAccepted_of_unhanded hnone) hempty hreport

/-- So is one that is taken. -/
theorem upload_taken_credits (hin : CreditsAll ds) (e : Ending) (hs : s.Distinct)
    (hr : s.running = true) (ha : s.agents.lookup name = some a)
    (hdirect : ∀ c ∈ (⟨.upload name ds e, s⟩ : Doing) ::
      Doing.meanwhile (Deed.doings ds) (.upload name ds e) s, c.isDirect = false) :
    Credits s (⟨.upload name ds e, s⟩ :: Doing.meanwhile (Deed.doings ds) (.upload name ds e) s)
      ((upload (sender (Deed.runAll ds) e) name).run s).2 := by
  obtain ⟨before, after, hmem, -⟩ := List.lookup_eq_some_iff.mp ha
  have hname : name ∈ s.agents.map Prod.fst := by
    rw [hmem, List.map_append, List.map_cons]
    exact List.mem_append_cons_self
  have htight : Gains s (tighten name (a.strict || s.strictActions) s) 0 0 0 :=
    changeAgent_gains hs hname (fun _ => rfl) fun _ => rfl
  have hlead : handed (Deed.upload name ds e).lead s =
      handed (loadLead name .null) (tighten name (a.strict || s.strictActions) s) :=
    handed_upload hr ha
  have hempty : (⟨.upload name ds e, s⟩ : Doing).isEmptyUpload =
      composesNothing name .null (tighten name (a.strict || s.strictActions) s) := by
    simp only [Doing.isEmptyUpload, hr, ha, Option.any_some, Bool.true_and]
  rw [Doing.meanwhile] at hdirect ⊢
  rcases sendUpload_cases name .null (tighten name (a.strict || s.strictActions) s) with
    ⟨r, u, hhanded, hrun, hfailed, hnothing, hu⟩ |
    ⟨stream, payload, u, hhanded, hrun, hnothing, hu⟩
  · rw [hhanded] at hlead
    rw [← hempty] at hnothing
    obtain ⟨hreport, hgains⟩ := upload_gains hs hname hr ha (hrun (sender (Deed.runAll ds) e))
      (htight.nothing_trans hu)
    rw [hlead]
    exact Credits.unhanded (c := ⟨.upload name ds e, s⟩) hlead hreport hfailed hnothing hgains
  · rw [hhanded] at hlead
    rw [hnothing] at hempty
    rw [hlead] at hdirect ⊢
    have hbefore : Gains s u 0 0 0 := htight.nothing_trans hu
    obtain ⟨v, hv, hcredits⟩ := sender_credits hin e payload (hbefore.distinct hs)
      fun c hc => hdirect c (List.mem_cons_of_mem _ hc)
    have hnames : name ∈ v.agents.map Prod.fst := hcredits.mem_names (hbefore.mem_names hname)
    have hdistinct : v.Distinct := hcredits.distinct (hbefore.distinct hs)
    obtain ⟨w, hw, hgained⟩ := concludeUpload_gains hdistinct hnames stream payload e.result
    have hsend := hrun (sender (Deed.runAll ds) e)
    rw [hv, hw] at hsend
    obtain ⟨hreport, hgains⟩ := upload_gains hdistinct hnames hr ha hsend hgained
    exact Credits.handedOver (c := ⟨.upload name ds e, s⟩) rfl hlead hempty hreport
      (hbefore.nothing_trans hcredits) hgains

/-! ### Runs -/

/-- The query of a builder that is found first leaves the books to its sender. -/
theorem askFound_spares (t : Target) (connected : Bool) (wait : Value) : SparesBooks fun send => do
    let id ← findBuilder t
    if connected then connect id
    return Answer.value (← askWith send id wait) := by
  intro F send hs
  have hask (id : BuilderId) :=
    (askWith_spares id wait F send hs).bind fun v => preserves_pure (Answer.value v)
  refine (workshop_books _).bind fun id => preserves_ite ?_ (hask id)
  exact (workshop_books _).bind fun _ => hask id

theorem askFoundUnderSettings_spares (t : Target) (wait : Value) : SparesBooks fun send => do
    let id ← findBuilder t
    return Answer.value (← askUnderSettings send id wait) := fun F send hs =>
  (workshop_books _).bind fun id =>
    (askUnderSettings_spares id wait F send hs).bind fun _ => preserves_pure _

/-- What does not send is credited with nothing. -/
theorem alone_credits (hd : c.deed.isSending = false) (hsent : c.isAccepted = false)
    (hempty : c.isEmptyUpload = false) : Credits c.before [c] c.after :=
  Credits.pass (Gains.refl c.before)
    (.of_books (Deed.run_books (F := (· = c.before.books)) hd c.before rfl)) hsent hempty
    (Doing.report_of_not_sending hd)

end Session

open Session

mutual

/-- A deed is credited with all that is done inside it. -/
theorem Deed.run_credits : ∀ (d : Deed) (s : Session), s.Distinct →
    (∀ c ∈ (⟨d, s⟩ : Doing) :: d.inside s, c.isDirect = false) →
      Credits s (⟨d, s⟩ :: d.inside s) (d.run.run s).2
  | .query fn args wait ds e, s, hs, hdirect => by
      rw [Deed.run, state_bind_pure]
      rw [Deed.inside] at hdirect ⊢
      exact Uses.credits (d := .query fn args wait ds e) (Deed.runAll_credits ds)
        (query_uses (Nat.le_refl _) fn args wait) (query_spares fn args wait) rfl rfl rfl hs
        hdirect e
  | .ask stream wait ds e, s, hs, hdirect => by
      rw [Deed.run, state_bind_pure]
      rw [Deed.inside] at hdirect ⊢
      exact Uses.credits (d := .ask stream wait ds e) (Deed.runAll_credits ds)
        (ask_uses (Nat.le_refl _) stream wait) (ask_spares stream wait) rfl rfl rfl hs hdirect e
  | .abandonedQuery fn args ds e, s, hs, hdirect => by
      rw [Deed.run]
      rw [Deed.inside] at hdirect ⊢
      exact Uses.credits (d := .abandonedQuery fn args ds e) (Deed.runAll_credits ds)
        ((abandonedQuery_uses (Nat.le_refl _) fn args).bind fun _ _ => preserves_state.bind fun _ =>
          preserves_pure _)
        ((abandonedQuery_spares fn args).bind fun _ _ _ _ => preserves_state.bind fun _ =>
          preserves_pure _) rfl rfl rfl hs hdirect e
  | .askWith t connected wait ds e, s, hs, hdirect => by
      rw [Deed.run]
      rw [Deed.inside] at hdirect ⊢
      exact Uses.credits (Deed.runAll_credits ds) (askFound_uses t connected wait ds e s)
        (askFound_spares t connected wait) rfl rfl rfl hs hdirect e
  | .askUnderSettings t wait ds e, s, hs, hdirect => by
      rw [Deed.run]
      rw [Deed.inside] at hdirect ⊢
      exact Uses.credits (Deed.runAll_credits ds) (askFoundUnderSettings_uses t wait ds e s)
        (askFoundUnderSettings_spares t wait) rfl rfl rfl hs hdirect e
  | .sendUpload name context ds e, s, _, hdirect => by
      cases hdirect _ List.mem_cons_self
  | .upload name ds e, s, hs, hdirect => by
      rw [Deed.run, state_bind_pure]
      rw [Deed.inside] at hdirect ⊢
      by_cases h : s.running = false ∨ s.agents.lookup name = none
      · exact upload_refused_credits name ds e h
      · rw [not_or, Bool.not_eq_false] at h
        obtain ⟨a, ha⟩ := Option.ne_none_iff_exists'.mp h.2
        exact upload_taken_credits (Deed.runAll_credits ds) e hs h.1 ha hdirect
  | .respond r, s, _, _ => alone_credits (c := ⟨.respond r, s⟩) rfl rfl rfl
  | .close, s, _, _ => alone_credits (c := ⟨.close, s⟩) rfl rfl rfl
  | .reopen, s, _, _ => alone_credits (c := ⟨.reopen, s⟩) rfl rfl rfl
  | .lineState, s, _, _ => alone_credits (c := ⟨.lineState, s⟩) rfl rfl rfl
  | .builderStep t step, s, _, _ => alone_credits (c := ⟨.builderStep t step, s⟩) rfl rfl rfl
  | .inspect t, s, _, _ => alone_credits (c := ⟨.inspect t, s⟩) rfl rfl rfl
  | .composeStream agent context, s, _, _ =>
      alone_credits (c := ⟨.composeStream agent context, s⟩) rfl rfl rfl
  | .agentStatus agent, s, _, _ => alone_credits (c := ⟨.agentStatus agent, s⟩) rfl rfl rfl
  | .telemetry raw, s, _, _ => alone_credits (c := ⟨.telemetry raw, s⟩) rfl rfl rfl
  | .stop, s, _, _ => alone_credits (c := ⟨.stop, s⟩) rfl rfl rfl
  | .strictActions, s, _, _ => alone_credits (c := ⟨.strictActions, s⟩) rfl rfl rfl
  | .configure act, s, _, _ => alone_credits (c := ⟨.configure act, s⟩) rfl rfl rfl
  | .fail f, s, _, _ => alone_credits (c := ⟨.fail f, s⟩) rfl rfl rfl
termination_by structural d => d

/-- So are deeds one after another. -/
theorem Deed.runAll_credits : ∀ ds : List Deed, CreditsAll ds
  | [], _, s, _, _ => Gains.refl s
  | d :: ds, place, s, hs, hdirect => by
      rw [Deed.doings, ← List.cons_append] at hdirect ⊢
      have hnote : Gains (d.run.run s).2 (note place (d.run.run s).1 (d.run.run s).2) 0 0 0 :=
        ⟨rfl, rfl, rfl, rfl⟩
      have hfirst := Gains.trans_nothing (Deed.run_credits d s hs fun c hc =>
        hdirect c (List.mem_append_left _ hc)) hnote
      have hrest := Deed.runAll_credits ds place _ (hfirst.distinct hs) fun c hc =>
        hdirect c (List.mem_append_right _ hc)
      exact Credits.append hfirst hrest
termination_by structural ds => ds

end

/-- In every run of deeds in which agents with different names send through their session only,
whatever is done inside of senders, and whether deeds fail or not:

* what the agents count as sent, all together, goes up by the payloads of uploads that were handed
  over and that the sender accepted,
* what the session counts as sent goes up by these and by the uploads that it took and whose agent
  composed an empty stream, so it goes up by what the agents count just if there are none,
* what the agents count as failures goes up by the uploads that failed, and so do the errors of
  the session besides those of its decoder. -/
theorem Deed.deliveries_balance (ds : List Deed) (place : Nat) (s : Session) (hs : s.Distinct)
    (hdirect : ∀ c ∈ Deed.doings ds place s, c.isDirect = false) :
    let cs := Deed.doings ds place s
    let t := ((Deed.runAll ds place).run s).2
    t.agentsSent = s.agentsSent + cs.countP Doing.isAccepted ∧
    t.uploadsSent = s.uploadsSent + (cs.countP Doing.isAccepted + cs.countP Doing.isEmptyUpload) ∧
    (t.uploadsSent + s.agentsSent = s.uploadsSent + t.agentsSent ↔
      ∀ c ∈ cs, c.isEmptyUpload = false) ∧
    t.agentsFailed = s.agentsFailed + cs.countP Doing.isFailedUpload ∧
    t.errorCount + s.decoder.errorCount + s.agentsFailed =
      s.errorCount + t.decoder.errorCount + t.agentsFailed := by
  intro cs t
  have hcredits : Credits s cs t := Deed.runAll_credits ds place s hs hdirect
  have herrors : t.errorCount + s.decoder.errorCount =
      s.errorCount + t.decoder.errorCount + cs.countP Doing.isFailedUpload :=
    (Deed.doings_tracked tallied_tracks ds place s).errors
  have hsent := hcredits.sent_eq
  have hfailed := hcredits.failed_eq
  have huploads := hcredits.uploads_eq
  refine ⟨hsent, huploads, ?_, hfailed, ?_⟩
  · have hnone : cs.countP Doing.isEmptyUpload = 0 ↔ ∀ c ∈ cs, c.isEmptyUpload = false := by
      simp only [List.countP_eq_zero, Bool.not_eq_true]
    rw [← hnone]
    omega
  · omega

/-- An upload that is refused while another one is on the way that is accepted, and one whose
connection is lost. -/
def mixedUploads : List Deed :=
  [.upload "F-16" [.upload "F-16" [] (.gives (.bool false))] (.gives (.bool true)),
    .upload "F-16" [] (.fails (.raised .transport "down"))]

theorem Deed.deliveries_balance_mixed :
    (keyed "ENT").Distinct ∧
    (∀ c ∈ Deed.doings mixedUploads 0 (keyed "ENT"), c.isDirect = false) ∧
    let t := ((Deed.runAll mixedUploads 0).run (keyed "ENT")).2
    t.uploadsSent = 1 ∧ t.agentsSent = 1 ∧ t.agentsFailed = 2 ∧
      t.errorCount = t.decoder.errorCount + 2 := by
  have hdistinct : (keyed "ENT").Distinct := List.pairwise_singleton _ _
  have hdirect : ∀ c ∈ Deed.doings mixedUploads 0 (keyed "ENT"), c.isDirect = false := by
    decide +kernel
  obtain ⟨hsent, huploads, -, hfailed, herrors⟩ :=
    Deed.deliveries_balance mixedUploads 0 (keyed "ENT") hdistinct hdirect
  have haccepted : (Deed.doings mixedUploads 0 (keyed "ENT")).countP Doing.isAccepted = 1 := by
    decide +kernel
  have hempty : (Deed.doings mixedUploads 0 (keyed "ENT")).countP Doing.isEmptyUpload = 0 := by
    decide +kernel
  have hrefused : (Deed.doings mixedUploads 0 (keyed "ENT")).countP Doing.isFailedUpload = 2 := by
    decide +kernel
  have hsent₀ : (keyed "ENT").agentsSent = 0 := rfl
  have huploads₀ : (keyed "ENT").uploadsSent = 0 := rfl
  have hfailed₀ : (keyed "ENT").agentsFailed = 0 := rfl
  have herrors₀ : (keyed "ENT").errorCount = 0 := rfl
  have hdecoder₀ : (keyed "ENT").decoder.errorCount = 0 := rfl
  rw [haccepted, hsent₀] at hsent
  rw [haccepted, hempty, huploads₀] at huploads
  rw [hrefused, hfailed₀] at hfailed
  rw [hfailed, hfailed₀, herrors₀, hdecoder₀] at herrors
  refine ⟨hdistinct, hdirect, huploads, hsent, hfailed, ?_⟩
  omega

/-- A session with an agent that composes nothing. -/
def bareSession : Session :=
  let nothing : Target := .fresh .script false false .null .null []
  { files := { root := "/" }
    bridge := { timeout := .int 5 }
    agents := [("a", { setup := nothing, teardown := nothing })] }

/-- A session counts an upload as sent though no payload was handed over, and the agent counts
none. -/
theorem Deed.not_deliveries_bare :
    let cs := Deed.doings [.upload "a" [] (.gives (.bool false))] 0 bareSession
    let t := ((Deed.runAll [.upload "a" [] (.gives (.bool false))] 0).run bareSession).2
    bareSession.Distinct ∧ (∀ c ∈ cs, c.isDirect = false) ∧ t.transmissions.length = 0 ∧
      cs.countP Doing.isAccepted = 0 ∧ t.agentsSent = bareSession.agentsSent ∧
      t.uploadsSent = bareSession.uploadsSent + 1 := by
  refine ⟨List.pairwise_singleton _ _, ?_, rfl, rfl, rfl, rfl⟩
  decide +kernel

end Cockpit
