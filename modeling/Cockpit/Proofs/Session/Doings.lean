import Cockpit.Proofs.Session.Submissions
import Cockpit.Proofs.Session.Uploads

/-!
# All that is done in a session

`Deed.doings` lists what is done in a run, each deed with the session in which it begins: a deed
comes before those that its sender does, and these before the next one.  So what comes behind a
deed that does not send begins after it has ended.

A deed that sends first makes its payload ready, `Deed.lead`.  `Session.Uses` says how it goes on.
If there is nothing to hand over, its sender has no part in it.  If there is, the sender is called
once, and what follows depends on nothing but what the sender gave back and left behind.  Apart
from its sender the deed is calm (`Session.Calm`): it sends nothing, decodes nothing, counts no
error, and does not touch the queries that had a ticket before.
-/

namespace Cockpit

open Op

namespace Op

/-- How a sequence goes on with the outcome of its first part. -/
def goOn {σ α β : Type} (f : α → Op σ β) : Except Fault α × σ → Except Fault β × σ
  | (.ok a, t) => (f a).run t
  | (.error e, t) => (.error e, t)

theorem run_bind_eq_goOn {σ α β : Type} (x : Op σ α) (f : α → Op σ β) (s : σ) :
    (x >>= f).run s = goOn f (x.run s) := by
  rw [run_bind]
  rcases x.run s with ⟨_ | _, _⟩ <;> rfl

end Op

/-! ## Bridges that go on -/

namespace Bridge

variable {n m t : Ticket} {a b c : Bridge} {e : Event} {r o : Except Fault Value}

/-- Whether a ticket was given out and holds the slot just as long as its fate is open. -/
structure HeldWhilePending (t : Ticket) (b : Bridge) : Prop where
  taken : t < b.fates.length
  waits : b.slot = some t ↔ b.fate t = .pending

/-- What a bridge keeps of its state and of the tickets below a number. -/
structure Onward (n : Ticket) (b c : Bridge) : Prop where
  grows : b.fates.length ≤ c.fates.length
  closed : b.closed = true → c.closed = true
  idle : b.closed = true → b.slot = none → c.slot = none
  held : ∀ t < n, b.HeldWhilePending t → c.HeldWhilePending t
  /-- A fate that was settled stays. -/
  settled : ∀ t < n, b.HeldWhilePending t → b.fate t ≠ .pending → c.fate t = b.fate t

namespace Onward

theorem refl (b : Bridge) : Onward n b b :=
  ⟨Nat.le_refl _, id, fun _ => id, fun _ _ => id, fun _ _ _ _ => rfl⟩

theorem trans (h : Onward n a b) (h' : Onward n b c) : Onward n a c where
  grows := Nat.le_trans h.grows h'.grows
  closed ha := h'.closed (h.closed ha)
  idle ha hs := h'.idle (h.closed ha) (h.idle ha hs)
  held t ht ha := h'.held t ht (h.held t ht ha)
  settled t ht ha hp := by
    have hf := h.settled t ht ha hp
    rw [h'.settled t ht (h.held t ht ha) (hf ▸ hp), hf]

theorem mono (h : Onward n b c) (hm : m ≤ n) : Onward m b c where
  grows := h.grows
  closed := h.closed
  idle := h.idle
  held t ht := h.held t (Nat.lt_of_lt_of_le ht hm)
  settled t ht := h.settled t (Nat.lt_of_lt_of_le ht hm)

end Onward

/-- What only counts, or only closes, goes on. -/
theorem onward_of_eq (hc : b.closed = true → c.closed = true) (hs : c.slot = b.slot)
    (hf : c.fates = b.fates) : Onward n b c where
  grows := Nat.le_of_eq (congrArg List.length hf).symm
  closed := hc
  idle _ hb := hs.trans hb
  held t _ hb := ⟨by rw [hf]; exact hb.taken, by rw [hs, fate_congr hf]; exact hb.waits⟩
  settled t _ _ _ := fate_congr hf t

theorem onward_take (hn : n ≤ b.fates.length) (hopen : b.closed = false) (hfree : b.slot = none) :
    Onward n b b.take where
  grows := by
    rw [length_take]
    exact Nat.le_succ _
  closed hb := hb
  idle hb := by
    rw [hopen] at hb
    cases hb
  held t ht hb := by
    have hlt := Nat.lt_of_lt_of_le ht hn
    have hne : b.fate t ≠ .pending := by
      rw [← hb.waits.ne, hfree]
      exact nofun
    refine ⟨?_, ?_⟩
    · rw [length_take]
      exact Nat.lt_succ_of_lt hlt
    · rw [fate_take_of_lt hlt]
      exact iff_of_false (slot_take_ne hlt) hne
  settled t ht _ _ := fate_take_of_lt (Nat.lt_of_lt_of_le ht hn)

theorem onward_release (hn : n ≤ t) (b : Bridge) : Onward n b (b.release t) where
  grows := Nat.le_of_eq (congrArg List.length (fates_release t b)).symm
  closed hb := (closed_release t b).trans hb
  idle _ hs := slot_release (Or.inr hs)
  held u hu hb := by
    have hne : t ≠ u := Nat.ne_of_gt (Nat.lt_of_lt_of_le hu hn)
    refine ⟨by rw [fates_release]; exact hb.taken, ?_⟩
    rw [fate_release, ← hb.waits, release]
    split
    · rename_i hs
      rw [hs]
      exact iff_of_false (Option.some_ne_none u).symm fun h => hne (Option.some.inj h)
    · rfl
  settled u _ _ _ := fate_release t u b

/-- Whoever holds the slot may be settled. -/
theorem onward_settle {f : Fate} (hf : f ≠ .pending) (hs : b.slot = some t) :
    Onward n b (b.settle t f) where
  grows := Nat.le_of_eq (length_settle t f b).symm
  closed hb := hb
  idle _ _ := rfl
  held u _ hb := by
    refine ⟨by rw [length_settle]; exact hb.taken, iff_of_false nofun ?_⟩
    by_cases hu : u = t
    · subst hu
      rw [fate_settle_self hb.taken]
      exact hf
    · rw [fate_settle_of_ne hu, ← hb.waits, hs]
      exact fun h => hu (Option.some.inj h).symm
  settled u _ hb hp := by
    refine fate_settle_of_ne ?_ f b
    rintro rfl
    exact hp (hb.waits.mp hs)

theorem Finish.onward (h : Finish t r b o c) : Onward n b c :=
  onward_of_eq (fun hb => h.closed_eq.trans hb) h.slot_eq h.fates_eq

/-- What happens outside of calls goes on, unless it reopens the bridge. -/
theorem Turn.onward (h : Turn b e c) (he : e ≠ .reopened) : Onward n b c := by
  have hclose (b : Bridge) : Onward n b b.close := onward_of_eq (fun _ => rfl) rfl rfl
  cases h with
  | unset _ => exact .refl b
  | answers _ hs => exact onward_settle nofun hs
  | stray _ _ _ => exact onward_of_eq id rfl rfl
  | cancels hs => exact (hclose b).trans (onward_settle nofun hs)
  | shut _ => exact hclose b
  | reopened => exact absurd rfl he
  | refused _ => exact .refl b

end Bridge

/-! ## What does not send -/

namespace Session

open Bridge

variable {α β : Type} {n : Ticket} {s t u : Session} {send : Sender}

/-- Whether nothing is sent, decoded or counted as an error between two sessions, and the tickets
below a number are left alone. -/
structure Calm (n : Ticket) (s t : Session) : Prop where
  running : t.running = s.running
  decoder : t.decoder = s.decoder
  errors : t.errorCount = s.errorCount
  transmissions : t.transmissions = s.transmissions
  bridge : Onward n s.bridge t.bridge

theorem Calm.refl (s : Session) : Calm n s s := ⟨rfl, rfl, rfl, rfl, .refl _⟩

theorem Calm.trans (h : Calm n s t) (h' : Calm n t u) : Calm n s u where
  running := h'.running.trans h.running
  decoder := h'.decoder.trans h.decoder
  errors := h'.errors.trans h.errors
  transmissions := h'.transmissions.trans h.transmissions
  bridge := h.bridge.trans h'.bridge

theorem workshop_calm (x : Op Workshop α) : (x.on workshopPart).Preserves (Calm n s) :=
  preserves_on x fun _ _ h => ⟨h.running, h.decoder, h.errors, h.transmissions, h.bridge⟩

theorem line_calm {x : Op Line α} (hx : ∀ l, Onward n l.bridge (x.run l).2.bridge) :
    (x.on linePart).Preserves (Calm n s) := fun t h =>
  ⟨h.running, h.decoder, h.errors, h.transmissions, h.bridge.trans (hx (linePart.get t))⟩

theorem say_calm (source : Log.Source) (level : Log.Level) (text : String) :
    (say source level text).Preserves (Calm n s) := workshop_calm _

theorem changeAgent_calm (name : String) (f : Agent → Agent) (h : Calm n s t) :
    Calm n s (changeAgent name f t) :=
  ⟨h.running, h.decoder, h.errors, h.transmissions, h.bridge⟩

theorem findBuilder_calm (t : Target) : (findBuilder t).Preserves (Calm n s) := workshop_calm _

theorem findAgent_calm (name : String) : (findAgent name).Preserves (Calm n s) := by
  refine preserves_state.bind fun t => ?_
  cases t.agents.lookup name with
  | none => exact preserves_stop _
  | some a => exact preserves_pure a

theorem prepare_calm (stream : Stream) : (prepare stream).Preserves (Calm n s) := by
  refine (preserves_liftM _).bind fun payload => preserves_state.bind fun t => ?_
  refine preserves_ite (Preserves.bind ?_ fun _ => preserves_pure _) (preserves_pure _)
  exact line_calm fun _ => .refl _

theorem conclude_calm (t : Ticket) (wait : Value) :
    ((Line.conclude t wait).on linePart).Preserves (Calm n s) :=
  line_calm fun l => (Line.conclude_finish t wait l (r := .ok (.bool true)) rfl).onward

theorem sendFailed_calm : (Line.sendFailed.on linePart).Preserves (Calm n s) :=
  line_calm fun l => (Line.sendFailed_finish 0 l (r := .ok (.bool false)) rfl).onward

theorem release_calm {t : Ticket} (hn : n ≤ t) (u : Session) (h : Calm n s u) :
    Calm n s { u with bridge := u.bridge.release t } :=
  ⟨h.running, h.decoder, h.errors, h.transmissions, h.bridge.trans (onward_release hn _)⟩

theorem reserve_calm (hn : n ≤ s.bridge.fates.length) (stream : Stream) :
    Calm n s ((reserve stream).run s).2 := by
  have hbridge : Onward n s.bridge ((reserve stream).run s).2.bridge := by
    rcases reserve_cases stream s with ⟨hopen, hfree, hr⟩ | ⟨o, u, hr, hb, -⟩
    · rw [hr]
      exact onward_take hn hopen hfree
    · rw [hr, hb]
      exact .refl _
  rw [reserve] at hbridge ⊢
  split
  · exact .refl s
  · rename_i hq
    rw [if_neg hq] at hbridge
    exact ⟨rfl, rfl, rfl, rfl, hbridge⟩

/-! ## How a sender is used -/

/-- What a deed hands over, and the session in which its sender is called then. -/
def handed (lead : Op Session (Option String)) (s : Session) : Option (String × Session) :=
  match lead.run s with
  | (.ok (some payload), u) => some (payload, u)
  | _ => none

/-- How an operation uses its sender, by what it hands over. -/
inductive Uses (n : Ticket) (x : Sender → Op Session α) (s : Session) :
    Option (String × Session) → Prop where
  | silent {o : Except Fault α} {t : Session} (hrun : ∀ send, (x send).run s = (o, t))
      (ht : Calm n s t) : Uses n x s none
  | once {payload : String} {u : Session}
      {k : Except Fault Value × Session → Except Fault α × Session}
      (hrun : ∀ send, (x send).run s = k ((send payload).run u)) (hu : Calm n s u)
      (hrest : ∀ back, Calm n back.2 (k back).2) : Uses n x s (some (payload, u))

namespace Uses

variable {x : Sender → Op Session α} {h : Option (String × Session)}

/-- An operation that first calmly comes to a session uses its sender as what it does from there. -/
theorem of_calm {x' : Sender → Op Session α} (hx : Uses n x' u h) (hu : Calm n s u)
    (hrun : ∀ send, (x send).run s = (x' send).run u) : Uses n x s h := by
  cases hx with
  | silent hsilent ht => exact .silent (fun send => (hrun send).trans (hsilent send)) (hu.trans ht)
  | once honce hu' hrest =>
      exact .once (fun send => (hrun send).trans (honce send)) (hu.trans hu') hrest

/-- What does not send uses no sender. -/
theorem of_preserves {x : Op Session α} (hx : x.Preserves (Calm n s)) :
    Uses n (fun _ => x) s none :=
  .silent (fun _ => rfl) (hx s (.refl s))

/-- What comes behind does not use the sender. -/
theorem bind (hx : Uses n x s h) {f : α → Op Session β}
    (hf : ∀ a s, (f a).Preserves (Calm n s)) : Uses n (fun send => x send >>= f) s h := by
  have hbind {send : Sender} {r : Except Fault α × Session} (hr : (x send).run s = r) :
      (x send >>= f).run s = goOn f r := by rw [run_bind_eq_goOn, hr]
  have hrest (r : Except Fault α × Session) : Calm n r.2 (goOn f r).2 := by
    rcases r with ⟨e | a, t⟩
    · exact .refl t
    · exact hf a t t (.refl t)
  cases hx with
  | @silent o t hrun ht =>
      exact .silent (fun send => (hbind (hrun send)).trans rfl) (ht.trans (hrest (o, t)))
  | @once _ _ k hrun hu hk =>
      exact .once (k := fun back => goOn f (k back)) (fun send => hbind (hrun send)) hu
        fun back => (hk back).trans (hrest _)

theorem ensure (hx : Uses n x s h) {close : Session → Session}
    (hc : ∀ s t, Calm n s t → Calm n s (close t)) :
    Uses n (fun send => (x send).ensure close) s h := by
  cases hx with
  | @silent o t hrun ht =>
      refine .silent (o := o) (t := close t) (fun send => ?_) (hc _ _ ht)
      rw [run_ensure, hrun]
  | @once payload u k hrun hu hrest =>
      refine .once (k := fun back => ((k back).1, close (k back).2)) (fun send => ?_) hu
        fun back => hc _ _ (hrest back)
      rw [run_ensure, hrun]

/-- What comes first makes ready what is handed over. -/
theorem behind {y : Op Session β} {f : β → Sender → Op Session α}
    {g : β → Op Session (Option String)} (hy : Calm n s (y.run s).2)
    (hf : ∀ b u, y.run s = (.ok b, u) → Uses n (f b) u (handed (g b) u)) :
    Uses n (fun send => y >>= fun b => f b send) s (handed (y >>= g) s) := by
  rcases hr : y.run s with ⟨e | b, u⟩
  · rw [hr] at hy
    rw [handed, run_bind_error hr]
    exact .silent (fun send => run_bind_error hr) hy
  · rw [hr] at hy
    have hrun (send : Sender) : (y >>= fun b => f b send).run s = (f b send).run u :=
      run_bind_ok hr
    have hlead : handed (y >>= g) s = handed (g b) u := by rw [handed, run_bind_ok hr, handed]
    rw [hlead]
    exact (hf b u hr).of_calm hy hrun

theorem behind_state {f : Session → Sender → Op Session α}
    {g : Session → Op Session (Option String)} (hx : Uses n (f s) s (handed (g s) s)) :
    Uses n (fun send => Op.state >>= fun s => f s send) s (handed (Op.state >>= g) s) :=
  of_calm hx (.refl s) fun _ => rfl

theorem behind_update {f : Session → Session} {g : Op Session (Option String)}
    (hf : Calm n s (f s)) (hx : Uses n x (f s) (handed g (f s))) :
    Uses n (fun send => Op.update f >>= fun _ => x send) s
      (handed (Op.update f >>= fun _ => g) s) :=
  of_calm hx hf fun _ => rfl

end Uses

/-- A payload is delivered by calling the sender. -/
theorem deliver_uses (payload : String) (source : Log.Source) (what : String) :
    Uses n (fun send => deliver send payload source what) s (some (payload, s)) := by
  refine .once (k := fun back => (deliver (fun _ => liftM back.1) payload source what).run back.2)
    (fun send => deliver_once send payload source what s) (.refl s) fun back => ?_
  refine Preserves.recover (P := Calm n back.2) ?_ (fun f => ?_) back.2 (.refl _)
  · exact (preserves_liftM _).bind fun _ => preserves_pure _
  · exact (say_calm _ _ _).bind fun _ => preserves_pure _

/-! ### Queries -/

/-- What a query call does before its sender is called. -/
def askLead (stream : Stream) : Op Session (Option String) := do
  match ← reserve stream with
  | some _ => return some (← prepare stream)
  | none => return none

variable {stream : Stream} {wait : Value} {id : BuilderId}

theorem deliverQuery_uses (stream : Stream) (s : Session) :
    Uses n (fun send => deliverQuery send stream) s
      (handed (prepare stream >>= fun payload => pure (some payload)) s) := by
  simp only [deliverQuery_eq]
  refine Uses.behind (prepare_calm stream s (.refl s)) fun payload u _ => ?_
  exact deliver_uses payload .queryBridge "query"

/-- A call that holds the slot sends its stream, and gives the slot back. -/
theorem complete_uses {t : Ticket} (hn : n ≤ t) (stream : Stream) (wait : Value) (s : Session) :
    Uses n (fun send => complete send stream wait t) s
      (handed (prepare stream >>= fun payload => pure (some payload)) s) := by
  refine Uses.ensure ?_ fun s u h => release_calm hn u h
  refine (deliverQuery_uses stream s).bind fun sent v => ?_
  exact preserves_ite (conclude_calm t wait) sendFailed_calm

/-- The ticket of a call is the next one. -/
theorem reserve_ticket {t : Ticket} (hr : (reserve stream).run s = (.ok (some t), u)) :
    t = s.bridge.fates.length := by
  rcases reserve_cases stream s with ⟨-, -, h⟩ | ⟨o, v, h, -, ho⟩
  · rw [hr] at h
    exact Option.some.inj (Except.ok.inj (Prod.mk.inj h).1)
  · rw [hr] at h
    obtain ⟨rfl, -⟩ := Prod.mk.inj h
    rcases ho with ho | ⟨f, ho⟩ <;> cases ho

theorem ask_uses (hn : n ≤ s.bridge.fates.length) (stream : Stream) (wait : Value) :
    Uses n (fun send => ask send stream wait) s (handed (askLead stream) s) := by
  have hrun (send : Sender) : (ask send stream wait).run s =
      (reserve stream >>= fun t => match t with
        | some t => complete send stream (waitOf wait s.bridge) t
        | none => pure .null : Op Session Value).run s := by
    rw [run_ask, run_bind]
    rcases (reserve stream).run s with ⟨e | _ | t, u⟩ <;> rfl
  refine Uses.of_calm (Uses.behind (reserve_calm hn stream) fun t u hr => ?_) (.refl s) hrun
  cases t with
  | none => exact .of_preserves (preserves_pure _)
  | some t =>
      obtain rfl := reserve_ticket hr
      exact complete_uses hn stream _ u

theorem query_uses (hn : n ≤ s.bridge.fates.length) (fn args wait : Value) :
    Uses n (fun send => query send fn args wait) s
      (handed (liftM (queryOf fn args) >>= askLead) s) := by
  refine Uses.behind (preserves_liftM _ s (.refl s)) fun stream u hr => ?_
  obtain ⟨-, rfl⟩ := Prod.mk.inj hr
  exact ask_uses hn stream wait

/-- A query function makes a stream with one query. -/
theorem queries_queryOf {fn args : Value} (h : queryOf fn args = .ok stream) :
    stream.queries = 1 := by
  obtain ⟨xs, -, h⟩ := exists_of_bind_ok h
  cases h
  rfl

/-- What an abandoned query does once its stream was sent. -/
theorem giveUp_calm (t : Ticket) (sent : Bool) :
    (if sent then do
        let waiting := (← .state).bridge.slot == some t
        if waiting then (Line.cancel t).on linePart
        let _ ← (Line.conclude t .null).on linePart
        return waiting
      else do
        let _ ← Line.sendFailed.on linePart
        return false : Op Session Bool).Preserves (Calm n s) := by
  have hconclude (waiting : Bool) : (do
      let _ ← (Line.conclude t .null).on linePart
      return waiting : Op Session Bool).Preserves (Calm n s) :=
    (conclude_calm t .null).bind fun _ => preserves_pure _
  refine preserves_ite (fun u hu => ?_) (sendFailed_calm.bind fun _ => preserves_pure _)
  rw [run_state_bind]
  cases hw : u.bridge.slot == some t with
  | false => exact hconclude false u hu
  | true =>
      have hcancel : Calm n u (((Line.cancel t).on linePart).run u).2 :=
        ⟨rfl, rfl, rfl, rfl, onward_settle nofun (beq_iff_eq.mp hw)⟩
      simp only [if_true]
      exact bind_keeps (hu.trans hcancel) fun _ v _ hv => hconclude true v hv

theorem abandonedQuery_uses (hn : n ≤ s.bridge.fates.length) (fn args : Value) :
    Uses n (fun send => abandonedQuery send fn args) s
      (handed (liftM (queryOf fn args) >>= askLead) s) := by
  refine Uses.behind (preserves_liftM _ s (.refl s)) fun stream u hr => ?_
  obtain ⟨hq, rfl⟩ := Prod.mk.inj hr
  have hreserve : reserve stream = Line.claim.on linePart := by
    rw [reserve, if_neg (Decidable.not_not.mpr (queries_queryOf hq))]
  rw [← hreserve]
  refine Uses.behind (reserve_calm hn stream) fun t u hr => ?_
  cases t with
  | none => exact .of_preserves (preserves_pure _)
  | some t =>
      obtain rfl := reserve_ticket hr
      refine Uses.ensure ?_ fun s u h => release_calm hn u h
      exact (deliverQuery_uses stream u).bind fun sent v => giveUp_calm _ sent

/-! ### Queries of builders -/

/-- What a builder that can ask does before its sender is called. -/
def supplyLead (id : BuilderId) (kind : BuilderKind) : Op Session (Option String) := do
  supply id
  let stream := ((← .state).builder id).stream
  .update (announced kind stream.length)
  askLead stream

/-- What the call of a query builder does before its sender is called. -/
def submitLead (id : BuilderId) : Op Session (Option String) := do
  let b := (← .state).builder id
  if canAsk b then supplyLead id b.kind else return none

theorem handed_submitLead (id : BuilderId) (s : Session) :
    handed (submitLead id) s =
      if canAsk (s.builder id) then handed (supplyLead id (s.builder id).kind) s else none := by
  rw [handed, submitLead, run_state_bind]
  dsimp only
  cases canAsk (s.builder id) <;> rfl

theorem supply_calm (id : BuilderId) : (supply id).Preserves (Calm n s) := by
  refine (workshop_calm _).bind fun b => preserves_ite (workshop_calm _) (preserves_pure _)

/-- Why a builder cannot ask. -/
def refusal (b : Builder) : Fault :=
  if b.kind.asks then .noBridge b.kind.name else .noMember

/-- A builder without a query or a bridge is refused. -/
theorem run_askWith_refused (send : Sender) (hcan : canAsk (s.builder id) = false) (wait : Value) :
    (askWith send id wait).run s = (.error (refusal (s.builder id)), s) := by
  rw [askWith, run_bind, run_lookUp, refusal]
  rw [canAsk] at hcan
  dsimp only
  cases hasks : (s.builder id).kind.asks with
  | false => rfl
  | true =>
      rw [hasks, Bool.true_and] at hcan
      rw [hcan]
      rfl

theorem announced_calm (kind : BuilderKind) (length : Nat) (h : Calm n s u) :
    Calm n s (announced kind length u) := say_calm _ _ _ u h

theorem askWith_uses (hn : n ≤ s.bridge.fates.length) (id : BuilderId) (wait : Value) :
    Uses n (fun send => askWith send id wait) s (handed (submitLead id) s) := by
  rw [handed_submitLead]
  split
  · rename_i hcan
    have hrun (send : Sender) : (askWith send id wait).run s = (supply id >>= fun _ => do
        let stream := ((← .state).builder id).stream
        .update (announced (s.builder id).kind stream.length)
        ask send stream wait : Op Session Value).run s := by
      rw [run_askWith send hcan, run_bind]
      rcases (supply id).run s with ⟨f | v, u⟩ <;> rfl
    have hsupply := supply_calm id s (n := n) (.refl s)
    refine Uses.of_calm (Uses.behind hsupply fun v u hr => ?_) (.refl s) hrun
    rw [hr] at hsupply
    refine Uses.behind_state (Uses.behind_update (announced_calm _ _ (.refl u)) ?_)
    have hgrown := announced_calm (s.builder id).kind (u.builder id).stream.length hsupply
    exact ask_uses (Nat.le_trans hn hgrown.bridge.grows) _ wait
  · rename_i hcan
    have hcan' : canAsk (s.builder id) = false := Bool.eq_false_iff.mpr hcan
    exact .silent (fun send => run_askWith_refused send hcan' wait) (.refl s)

theorem underSettings_calm (id : BuilderId) (s : Session) : Calm n s (underSettings id s) :=
  ⟨rfl, rfl, rfl, rfl, .refl _⟩

theorem askUnderSettings_uses (hn : n ≤ s.bridge.fates.length) (id : BuilderId) (wait : Value) :
    Uses n (fun send => askUnderSettings send id wait) s
      (handed (Op.update (underSettings id) >>= fun _ => submitLead id) s) := by
  have hunder := underSettings_calm (n := n) id s
  refine Uses.of_calm ?_ hunder fun send => run_askUnderSettings send id wait s
  refine Uses.ensure (askWith_uses (Nat.le_trans hn hunder.bridge.grows) id wait) fun s t h => ?_
  exact ⟨h.running, h.decoder, h.errors, h.transmissions, h.bridge⟩

/-! ### Uploads -/

/-- Composes an upload and makes its payload ready, if there is anything to send. -/
def prepareUpload (name : String) (context : Value) : Op Session (Option (Stream × String)) := do
  let stream ← composeStream name context
  if stream.isEmpty then
    say .uploadAgent .info "Upload stream is empty, nothing to send"
    return none
  else
    let payload ← stream.framed
    if (← findAgent name).logStreams then
      say .uploadAgent .debug s!"Upload stream ({stream.length} commands): {payload}"
    return some (stream, payload)

/-- What an upload does before its sender is called. -/
def loadLead (name : String) (context : Value) : Op Session (Option String) := do
  return (← prepareUpload name context).map Prod.snd

theorem prepareUpload_calm (name : String) (context : Value) :
    (prepareUpload name context).Preserves (Calm n s) := by
  refine Preserves.bind ?_ fun stream => preserves_ite ?_ ?_
  · exact (findAgent_calm name).bind fun _ => workshop_calm _
  · exact (say_calm _ _ _).bind fun _ => preserves_pure _
  · refine (preserves_liftM _).bind fun payload => (findAgent_calm name).bind fun a => ?_
    exact preserves_ite ((say_calm _ _ _).bind fun _ => preserves_pure _) (preserves_pure _)

theorem sendUpload_eq (send : Sender) (name : String) (context : Value) :
    sendUpload send name context = prepareUpload name context >>= fun ready => match ready with
      | none => pure true
      | some (stream, payload) =>
        deliver send payload .uploadAgent "upload" >>= settleUpload name stream payload := by
  rw [sendUpload, prepareUpload, Op.bind_assoc]
  congr 1
  funext stream
  split
  · rfl
  · rw [Op.bind_assoc]
    congr 1
    funext payload
    rw [Op.bind_assoc]
    congr 1
    funext a
    cases a.logStreams <;> rfl

theorem settleUpload_calm (name : String) (stream : Stream) (payload : String) (sent : Bool) :
    (settleUpload name stream payload sent).Preserves (Calm n s) := by
  refine preserves_ite ?_ ?_
  · exact Preserves.bind (preserves_update fun _ h => changeAgent_calm _ _ h) fun _ =>
      (say_calm _ _ _).bind fun _ => preserves_pure _
  · exact Preserves.bind (preserves_update fun _ h => changeAgent_calm _ _ h) fun _ =>
      (say_calm _ _ _).bind fun _ => preserves_pure _

theorem sendUpload_uses (name : String) (context : Value) (s : Session) :
    Uses n (fun send => sendUpload send name context) s (handed (loadLead name context) s) := by
  simp only [sendUpload_eq]
  refine Uses.behind (prepareUpload_calm name context s (.refl s)) fun ready u _ => ?_
  cases ready with
  | none => exact .of_preserves (preserves_pure _)
  | some ready =>
      obtain ⟨stream, payload⟩ := ready
      exact (deliver_uses payload .uploadAgent "upload").bind fun sent v =>
        settleUpload_calm name stream payload sent

end Session

/-! ## Doings -/

open Session in
/-- What a deed does before its sender is called: the payload that it hands over, if it does. -/
def Deed.lead : Deed → Op Session (Option String)
  | .query fn args _ _ _ => liftM (queryOf fn args) >>= askLead
  | .ask stream _ _ _ => askLead stream
  | .abandonedQuery fn args _ _ => liftM (queryOf fn args) >>= askLead
  | .askWith t connected _ _ _ => do
    let id ← findBuilder t
    if connected then connect id
    submitLead id
  | .askUnderSettings t _ _ _ => do
    let id ← findBuilder t
    .update (underSettings id)
    submitLead id
  | .sendUpload name context _ _ => loadLead name context
  | .upload name _ _ => do
    let s ← .state
    if s.running then
      let a ← findAgent name
      .update (tighten name (a.strict || s.strictActions))
      loadLead name .null
    else return none
  | _ => return none

/-- Whether a deed may send. -/
def Deed.isSending : Deed → Bool
  | .query .. | .ask .. | .abandonedQuery .. | .askWith .. | .askUnderSettings .. => true
  | .sendUpload .. | .upload .. => true
  | _ => false

/-- Whether a deed has nothing to do with a sender, telemetry or the bridge. -/
def Deed.isQuiet : Deed → Bool
  | .lineState | .builderStep .. | .inspect .. | .composeStream .. | .agentStatus .. => true
  | .strictActions | .configure .. | .fail .. => true
  | _ => false

open Session in
theorem Deed.run_calm {n : Ticket} {s : Session} :
    ∀ d : Deed, d.isQuiet = true → d.run.Preserves (Calm n s)
  | .lineState, _ => preserves_state.bind fun _ => preserves_pure _
  | .builderStep t step, _ => (findBuilder_calm t).bind fun id =>
      (workshop_calm _).bind fun _ => preserves_pure _
  | .inspect t, _ => (findBuilder_calm t).bind fun id =>
      (workshop_calm _).bind fun _ => preserves_pure _
  | .composeStream agent context, _ => by
      refine Preserves.bind ?_ fun stream => (preserves_liftM _).bind fun _ => preserves_pure _
      exact (findAgent_calm agent).bind fun _ => workshop_calm _
  | .agentStatus agent, _ => (findAgent_calm agent).bind fun _ => preserves_pure _
  | .strictActions, _ => preserves_state.bind fun _ => preserves_pure _
  | .configure act, _ => by
      refine Preserves.bind ?_ fun _ => preserves_pure _
      exact preserves_on _ fun _ _ h => ⟨h.running, h.decoder, h.errors, h.transmissions, h.bridge⟩
  | .fail f, _ => preserves_stop f

namespace Session

/-- What the agent of an upload reports, if a session takes the upload. -/
def report (send : Sender) (name : String) (s : Session) : Option (Except Fault Bool) :=
  if s.running then (s.agents.lookup name).map fun a =>
    ((sendUpload send name .null).run (tighten name (a.strict || s.strictActions) s)).1
  else none

/-- The session after the report of an agent was counted. -/
def counted : Option (Except Fault Bool) → Session → Session
  | some (.ok true), s => { s with uploadsSent := s.uploadsSent + 1 }
  | some (.ok false), s => { s with errorCount := s.errorCount + 1 }
  | _, s => s

end Session

/-- A deed with the session in which it begins. -/
structure Doing where
  deed : Deed
  before : Session

namespace Doing

/-- How a deed ends. -/
def outcome (c : Doing) : Except Fault Answer := (c.deed.run.run c.before).1

/-- The session in which a deed ends. -/
def after (c : Doing) : Session := (c.deed.run.run c.before).2

/-- What the agent reports if the deed is an upload that is taken. -/
def report (c : Doing) : Option (Except Fault Bool) :=
  match c.deed with
  | .upload name ds e => Session.report (Session.sender (Deed.runAll ds) e) name c.before
  | _ => none

/-- What is done while the payload of a deed is on the way. -/
def meanwhile (during : Nat → Session → List Doing) (d : Deed) (s : Session) : List Doing :=
  match Session.handed d.lead s with
  | some (payload, u) => during u.transmissions.length (Session.transmit payload u)
  | none => []

end Doing

open Doing in
mutual

/-- All that the sender of a deed does. -/
def Deed.inside : Deed → Session → List Doing
  | .query fn args wait ds e => meanwhile (Deed.doings ds) (.query fn args wait ds e)
  | .ask stream wait ds e => meanwhile (Deed.doings ds) (.ask stream wait ds e)
  | .abandonedQuery fn args ds e => meanwhile (Deed.doings ds) (.abandonedQuery fn args ds e)
  | .askWith t connected wait ds e =>
    meanwhile (Deed.doings ds) (.askWith t connected wait ds e)
  | .askUnderSettings t wait ds e => meanwhile (Deed.doings ds) (.askUnderSettings t wait ds e)
  | .sendUpload name context ds e => meanwhile (Deed.doings ds) (.sendUpload name context ds e)
  | .upload name ds e => meanwhile (Deed.doings ds) (.upload name ds e)
  | _ => fun _ => []
termination_by structural d => d

/-- All that is done in a run of deeds one after another. -/
def Deed.doings : List Deed → Nat → Session → List Doing
  | [], _, _ => []
  | d :: ds, place, s =>
    ⟨d, s⟩ :: (d.inside s ++
      Deed.doings ds place (Session.note place (d.run.run s).1 (d.run.run s).2))
termination_by structural ds => ds

end

/-! ### Inside of what is done -/

/-- What holds of all that a deed may do while its payload is on the way holds of what it does. -/
theorem Doing.meanwhile_closed {during : Nat → Session → List Doing} {d : Deed} {s : Session}
    (h : ∀ place u, ∀ c ∈ during place u, ∀ x ∈ c.deed.inside c.before, x ∈ during place u) :
    ∀ c ∈ Doing.meanwhile during d s, ∀ x ∈ c.deed.inside c.before,
      x ∈ Doing.meanwhile during d s := by
  rw [Doing.meanwhile]
  split
  · exact h _ _
  · exact fun _ hc => absurd hc List.not_mem_nil

theorem Deed.inside_of_not_sending {d : Deed} (h : d.isSending = false) (s : Session) :
    d.inside s = [] := by
  cases d with
  | query | ask | abandonedQuery | askWith | askUnderSettings | sendUpload | upload => cases h
  | _ => rfl

mutual

/-- What is done inside of something that a deed does is done inside of the deed. -/
theorem Deed.inside_closed : ∀ (d : Deed) (s : Session),
    ∀ c ∈ d.inside s, ∀ x ∈ c.deed.inside c.before, x ∈ d.inside s
  | .query _ _ _ ds _, s | .ask _ _ ds _, s | .abandonedQuery _ _ ds _, s
  | .askWith _ _ _ ds _, s | .askUnderSettings _ _ ds _, s | .sendUpload _ _ ds _, s
  | .upload _ ds _, s => by
      rw [Deed.inside]
      exact Doing.meanwhile_closed (Deed.doings_closed ds)
  | .respond _, _ | .close, _ | .reopen, _ | .lineState, _ | .builderStep .., _ | .inspect _, _
  | .composeStream .., _ | .agentStatus _, _ | .telemetry _, _ | .stop, _ | .strictActions, _
  | .configure _, _ | .fail _, _ => by
      intro c hc
      rw [Deed.inside_of_not_sending rfl] at hc
      exact absurd hc List.not_mem_nil
termination_by structural d => d

/-- All that is done inside of something that is done is done. -/
theorem Deed.doings_closed : ∀ (ds : List Deed) (place : Nat) (s : Session),
    ∀ c ∈ Deed.doings ds place s, ∀ x ∈ c.deed.inside c.before, x ∈ Deed.doings ds place s
  | [], _, _ => fun _ hc => absurd hc List.not_mem_nil
  | d :: ds, place, s => by
      intro c hc x hx
      rw [Deed.doings, List.mem_cons, List.mem_append] at hc ⊢
      rcases hc with rfl | hc | hc
      · exact Or.inr (Or.inl hx)
      · exact Or.inr (Or.inl (Deed.inside_closed d s c hc x hx))
      · exact Or.inr (Or.inr (Deed.doings_closed ds place _ c hc x hx))
termination_by structural ds => ds

end

/-! ## What holds along all that is done -/

/-- What is to be known of a relation that holds between two sessions and all that is done between
them. -/
structure Deed.Tracks (R : Session → List Doing → Session → Prop) : Prop where
  refl : ∀ s, R s [] s
  append : ∀ {s t u : Session} {cs cs' : List Doing}, R s cs t → R t cs' u → R s (cs ++ cs') u
  note : ∀ {s t : Session} {cs : List Doing} (place : Nat) (r : Except Fault Answer),
    R s cs t → R s cs (Session.note place r t)
  transmit : ∀ {s t : Session} {cs : List Doing} (payload : String),
    R (Session.transmit payload s) cs t → R s cs t
  before : ∀ {s u t : Session} {cs : List Doing},
    Session.Calm s.bridge.fates.length s u → R u cs t → R s cs t
  behind : ∀ {s u t : Session} {cs : List Doing},
    R s cs u → Session.Calm s.bridge.fates.length u t → R s cs t
  /-- A deed without a sender. -/
  alone : ∀ c : Doing, c.deed.isSending = false → R c.before [c] c.after
  /-- A deed with a sender, apart from what its sender does. -/
  enter : ∀ {c : Doing} {cs : List Doing} {t : Session}, c.deed.isSending = true →
    R c.before cs t → R c.before (c :: cs) (Session.counted c.report t)

namespace Session

variable {R : Session → List Doing → Session → Prop} {α : Type} {x : Sender → Op Session α}
  {d : Deed} {ds : List Deed} {s t : Session}

/-- What is done inside a deed is tracked if it is tracked in its sender. -/
theorem Uses.tracked (hR : Deed.Tracks R)
    (hin : ∀ place s, R s (Deed.doings ds place s) ((Deed.runAll ds place).run s).2)
    (hx : Uses s.bridge.fates.length x s (handed d.lead s)) (e : Ending) :
    R s (Doing.meanwhile (Deed.doings ds) d s) ((x (sender (Deed.runAll ds) e)).run s).2 := by
  rw [Doing.meanwhile]
  generalize handed d.lead s = h at hx ⊢
  cases hx with
  | silent hrun ht =>
      rw [hrun]
      exact hR.behind (hR.refl s) ht
  | @once payload u k hrun hu hrest =>
      rw [hrun]
      have hback := hin u.transmissions.length (transmit payload u)
      rw [← run_sender (Deed.runAll ds) e payload u] at hback
      exact hR.behind (hR.before hu (hR.transmit _ hback)) (hrest _)

/-- So a deed that sends is tracked, unless it is an upload. -/
theorem Uses.entered (hR : Deed.Tracks R)
    (hin : ∀ place s, R s (Deed.doings ds place s) ((Deed.runAll ds place).run s).2)
    (hx : Uses s.bridge.fates.length x s (handed d.lead s)) (hd : d.isSending = true)
    (hreport : (⟨d, s⟩ : Doing).report = none) (e : Ending) :
    R s (⟨d, s⟩ :: Doing.meanwhile (Deed.doings ds) d s)
      ((x (sender (Deed.runAll ds) e)).run s).2 := by
  have h := hR.enter (c := ⟨d, s⟩) hd (hx.tracked hR hin e)
  rwa [hreport] at h

variable {name : String} {a : Agent} {e : Ending}

/-- An upload that is not taken, or has no agent, uses no sender, and is not counted. -/
theorem upload_refused (send : Sender) (ds : List Deed) (e : Ending)
    (h : s.running = false ∨ s.agents.lookup name = none) :
    handed (Deed.upload name ds e).lead s = none ∧ report send name s = none ∧
      Calm s.bridge.fates.length s ((upload send name).run s).2 := by
  rw [handed, Deed.lead, report, upload, run_state_bind, run_state_bind]
  cases hr : s.running with
  | false => exact ⟨rfl, rfl, say_calm _ _ _ s (.refl s)⟩
  | true =>
      have hnone : s.agents.lookup name = none := h.resolve_left (by rw [hr]; decide)
      have hfind : (findAgent name).run s = (.error (.missingKey name), s) := by
        rw [findAgent, run_state_bind, hnone]
        rfl
      simp only [hnone, Bool.not_true, if_true, if_false, Bool.false_eq_true,
        run_bind_error hfind]
      exact ⟨trivial, rfl, .refl s⟩

/-- What is handed over by an upload that is taken. -/
theorem handed_upload (hr : s.running = true) (ha : s.agents.lookup name = some a) :
    handed (Deed.upload name ds e).lead s =
      handed (Op.update (tighten name (a.strict || s.strictActions)) >>= fun _ =>
        loadLead name .null) s := by
  have hfind : (findAgent name).run s = (.ok a, s) := by
    rw [findAgent, run_state_bind, ha]
    rfl
  rw [handed, Deed.lead, run_state_bind, if_pos hr, run_bind_ok hfind, handed]

/-- An upload that is taken is counted by what its agent reports. -/
theorem run_upload_taken (send : Sender) (hr : s.running = true)
    (ha : s.agents.lookup name = some a) :
    ((upload send name).run s).2 = counted (report send name s)
      ((Op.update (tighten name (a.strict || s.strictActions)) >>= fun _ =>
        (sendUpload send name .null).ensure (tighten name a.strict)).run s).2 := by
  rw [run_upload send ha, if_pos hr, report, if_pos hr, ha, Option.map_some, run_update_bind,
    run_bind, run_ensure]
  rcases (sendUpload send name .null).run (tighten name (a.strict || s.strictActions) s) with
    ⟨f | _ | _, t⟩
  · rfl
  · rfl
  · rfl

/-- What is done inside an upload is tracked, up to the counting of the report. -/
theorem upload_tracked (hR : Deed.Tracks R)
    (hin : ∀ place s, R s (Deed.doings ds place s) ((Deed.runAll ds place).run s).2)
    (name : String) (e : Ending) (s : Session) :
    ∃ t, R s (Doing.meanwhile (Deed.doings ds) (.upload name ds e) s) t ∧
      ((upload (sender (Deed.runAll ds) e) name).run s).2 =
        counted (report (sender (Deed.runAll ds) e) name s) t := by
  by_cases h : s.running = false ∨ s.agents.lookup name = none
  · obtain ⟨hnone, hreport, hcalm⟩ := upload_refused (sender (Deed.runAll ds) e) ds e h
    rw [Doing.meanwhile, hnone, hreport]
    exact ⟨_, hR.behind (hR.refl s) hcalm, rfl⟩
  · rw [not_or, Bool.not_eq_false] at h
    obtain ⟨a, ha⟩ := Option.ne_none_iff_exists'.mp h.2
    have hx : Uses s.bridge.fates.length (fun send =>
        Op.update (tighten name (a.strict || s.strictActions)) >>= fun _ =>
          (sendUpload send name .null).ensure (tighten name a.strict)) s
        (handed (Deed.upload name ds e).lead s) := by
      rw [handed_upload h.1 ha]
      refine Uses.behind_update (changeAgent_calm _ _ (.refl s)) ?_
      exact (sendUpload_uses name .null _).ensure fun _ _ h => changeAgent_calm _ _ h
    exact ⟨_, hx.tracked hR hin e, run_upload_taken _ h.1 ha⟩

/-- The query of a builder that is found first, and gets a bridge or not. -/
theorem askFound_uses (t : Target) (connected : Bool) (wait : Value) (ds : List Deed) (e : Ending)
    (s : Session) :
    Uses s.bridge.fates.length (fun send => do
      let id ← findBuilder t
      if connected then connect id
      return Answer.value (← askWith send id wait)) s
      (handed (Deed.askWith t connected wait ds e).lead s) := by
  have hfind := findBuilder_calm (n := s.bridge.fates.length) t s (.refl s)
  refine Uses.behind hfind fun id u hr => ?_
  rw [hr] at hfind
  have hanswer {v : Session} (hv : Calm s.bridge.fates.length s v) :
      Uses s.bridge.fates.length (fun send => askWith send id wait >>= fun v =>
        pure (Answer.value v)) v (handed (submitLead id) v) :=
    (askWith_uses hv.bridge.grows id wait).bind fun _ _ => preserves_pure _
  cases connected with
  | false => exact hanswer hfind
  | true =>
      have hconnect : Calm s.bridge.fates.length u ((connect id).run u).2 :=
        workshop_calm _ u (.refl u)
      refine Uses.behind hconnect fun _ v hv => ?_
      rw [hv] at hconnect
      exact hanswer (hfind.trans hconnect)

/-- The query of a builder that is found first, under the settings. -/
theorem askFoundUnderSettings_uses (t : Target) (wait : Value) (ds : List Deed) (e : Ending)
    (s : Session) :
    Uses s.bridge.fates.length (fun send => do
      let id ← findBuilder t
      return Answer.value (← askUnderSettings send id wait)) s
      (handed (Deed.askUnderSettings t wait ds e).lead s) := by
  have hfind := findBuilder_calm (n := s.bridge.fates.length) t s (.refl s)
  refine Uses.behind hfind fun id u hr => ?_
  rw [hr] at hfind
  exact (askUnderSettings_uses hfind.bridge.grows id wait).bind fun _ _ => preserves_pure _

end Session

open Session

mutual

/-- A deed is tracked with all that is done inside it. -/
theorem Deed.tracked {R : Session → List Doing → Session → Prop} (hR : Deed.Tracks R) :
    ∀ (d : Deed) (s : Session), R s (⟨d, s⟩ :: d.inside s) (d.run.run s).2
  | .query fn args wait ds e, s => by
      rw [Deed.run, state_bind_pure, Deed.inside]
      have hx := query_uses (s := s) (Nat.le_refl _) fn args wait
      exact Uses.entered (d := .query fn args wait ds e) hR (Deed.doings_tracked hR ds) hx rfl rfl e
  | .ask stream wait ds e, s => by
      rw [Deed.run, state_bind_pure, Deed.inside]
      have hx := ask_uses (s := s) (Nat.le_refl _) stream wait
      exact Uses.entered (d := .ask stream wait ds e) hR (Deed.doings_tracked hR ds) hx rfl rfl e
  | .abandonedQuery fn args ds e, s => by
      rw [Deed.run, Deed.inside]
      have hx := (abandonedQuery_uses (s := s) (Nat.le_refl _) fn args).bind
        (f := fun done => do return Answer.cancelled done (← .state).bridge.isAwaiting)
        fun _ _ => preserves_state.bind fun _ => preserves_pure _
      exact Uses.entered (d := .abandonedQuery fn args ds e) hR (Deed.doings_tracked hR ds) hx
        rfl rfl e
  | .askWith t connected wait ds e, s => by
      rw [Deed.run, Deed.inside]
      exact Uses.entered hR (Deed.doings_tracked hR ds) (askFound_uses t connected wait ds e s)
        rfl rfl e
  | .askUnderSettings t wait ds e, s => by
      rw [Deed.run, Deed.inside]
      exact Uses.entered hR (Deed.doings_tracked hR ds) (askFoundUnderSettings_uses t wait ds e s)
        rfl rfl e
  | .sendUpload name context ds e, s => by
      rw [Deed.run, state_bind_pure, Deed.inside]
      exact Uses.entered (d := .sendUpload name context ds e) hR (Deed.doings_tracked hR ds)
        (sendUpload_uses name context s) rfl rfl e
  | .upload name ds e, s => by
      obtain ⟨t, ht, hrun⟩ := upload_tracked hR (Deed.doings_tracked hR ds) name e s
      rw [Deed.run, state_bind_pure, Deed.inside, hrun]
      exact hR.enter (c := ⟨.upload name ds e, s⟩) rfl ht
  | .respond r, s => hR.alone ⟨.respond r, s⟩ rfl
  | .close, s => hR.alone ⟨.close, s⟩ rfl
  | .reopen, s => hR.alone ⟨.reopen, s⟩ rfl
  | .lineState, s => hR.alone ⟨.lineState, s⟩ rfl
  | .builderStep t step, s => hR.alone ⟨.builderStep t step, s⟩ rfl
  | .inspect t, s => hR.alone ⟨.inspect t, s⟩ rfl
  | .composeStream agent context, s => hR.alone ⟨.composeStream agent context, s⟩ rfl
  | .agentStatus agent, s => hR.alone ⟨.agentStatus agent, s⟩ rfl
  | .telemetry raw, s => hR.alone ⟨.telemetry raw, s⟩ rfl
  | .stop, s => hR.alone ⟨.stop, s⟩ rfl
  | .strictActions, s => hR.alone ⟨.strictActions, s⟩ rfl
  | .configure act, s => hR.alone ⟨.configure act, s⟩ rfl
  | .fail f, s => hR.alone ⟨.fail f, s⟩ rfl
termination_by structural d => d

/-- So are deeds one after another. -/
theorem Deed.doings_tracked {R : Session → List Doing → Session → Prop} (hR : Deed.Tracks R) :
    ∀ (ds : List Deed) (place : Nat) (s : Session),
      R s (Deed.doings ds place s) ((Deed.runAll ds place).run s).2
  | [], _, s => hR.refl s
  | d :: ds, place, s => by
      have hfirst := hR.note place (d.run.run s).1 (Deed.tracked hR d s)
      exact hR.append hfirst (Deed.doings_tracked hR ds place _)
termination_by structural ds => ds

end

end Cockpit
