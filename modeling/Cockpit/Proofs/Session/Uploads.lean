import Cockpit.Proofs.Session.Composing

/-!
# Uploads are whole or not sent

`Session.run_sendUpload` takes an upload apart.  First the stream is composed, in which no sender
takes part.  Then its text is handed to the sender, once, and what is done with what comes back is
`Session.concludeUpload`, which knows nothing of the sender.

So an upload either is withheld, and then it ends in the same way whatever the sender, or it sends
the text of a whole stream just once.  `Session.upload_whole` says so of agents that are fit, and
that an unknown action makes a strict agent withhold its upload, at whatever depth it is asked for.
-/

namespace Cockpit

open Op Workshop

theorem Program.isLoyal_append (ss ts : List Step) :
    Program.isLoyal (ss ++ ts) = (Program.isLoyal ss && Program.isLoyal ts) := by
  induction ss with
  | nil => rfl
  | cons s ss ih => rw [List.cons_append, Program.isLoyal, Program.isLoyal, ih, Bool.and_assoc]

/-- A strict agent composes nothing if an unknown action is asked for. -/
theorem Agent.compose_unknown {a : Agent} {context : Value} {w : Workshop} (ha : a.strict = true)
    (hsetup : a.setup = coreSetup) (hteardown : a.teardown = coreTeardown)
    (hsystems : Program.isLoyal a.systems = true) (hw : w.Loyal) {r : Request}
    (hr : r ∈ a.requests context w) (hbreaks : r.Breaks) : (Session.compose a context).Fails w := by
  have hprogram : Program.isLoyal (a.program context) = true := by
    rw [program, Program.isLoyal, Program.isLoyal_append, hsystems, hsetup, hteardown]
    rfl
  have hbench : Program.isLoyal ([] : Program) = true := rfl
  have hstart : (a.start w).Loyal := ((Steadfast.refl hw).withBench hbench).loyal
  have hstrict : ((a.start w).builder w.benches.length).strict = true := by
    rw [start, builder_withBench_self]
    exact ha
  obtain ⟨e, t, hfails⟩ := Program.run_unknown (Builder.build_steadfast Builder.depthLimit)
    (Builder.build_unknown Builder.depthLimit) _ hprogram hstrict hstart r hr hbreaks
  refine ⟨e, t, ?_⟩
  rw [run_compose]
  exact congrArg (fun r : Except Fault Unit × Workshop =>
    (r.1.map fun _ => (r.2.builder w.benches.length).stream, r.2)) hfails

namespace Session

variable {s t : Session} {name : String} {a : Agent} {context : Value} {stream : Stream}
  {payload : String}

/-! ## Agents -/

theorem run_findAgent (ha : s.agents.lookup name = some a) :
    (findAgent name).run s = (.ok a, s) := by
  rw [findAgent, run_state_bind, ha]
  rfl

theorem lookup_changeAgent (name : String) (f : Agent → Agent) (s : Session) :
    (changeAgent name f s).agents.lookup name = (s.agents.lookup name).map f := by
  rw [changeAgent]
  dsimp only
  induction s.agents with
  | nil => rfl
  | cons e es ih =>
      obtain ⟨n, b⟩ := e
      by_cases hn : n = name
      · subst hn
        simp
      · have hne : (name == n) = false := beq_eq_false_iff_ne.mpr (Ne.symm hn)
        simp only [List.map_cons, if_neg hn, List.lookup_cons, hne]
        exact ih

/-- Composing changes only the workshop of a session. -/
theorem run_composeStream (ha : s.agents.lookup name = some a) (context : Value) :
    (composeStream name context).run s =
      (((compose a context).run s.toWorkshop).1,
        { s with toWorkshop := ((compose a context).run s.toWorkshop).2 }) := by
  rw [composeStream, run_bind_ok (run_findAgent ha)]
  rfl

/-! ## Sending once -/

/-- What an agent keeps of an upload that was delivered or not. -/
def settleUpload (name : String) (stream : Stream) (payload : String) (delivered : Bool) :
    Op Session Bool := do
  if delivered then
    .update (changeAgent name fun a => { a with uploadsSent := a.uploadsSent + 1 })
    say .uploadAgent .info s!"Upload sent: {stream.length} commands, {payload.length} chars"
    return true
  else
    .update (changeAgent name fun a => { a with uploadFailures := a.uploadFailures + 1 })
    say .uploadAgent .error "Upload failed to send"
    return false

/-- How an upload goes on with what the sender gave back. -/
def concludeUpload (name : String) (stream : Stream) (payload : String)
    (back : Except Fault Value) : Op Session Bool :=
  deliver (fun _ => liftM back) payload .uploadAgent "upload" >>= settleUpload name stream payload

/-- Whether an operation that may send ends in a fault before it does: it ends in the same way
whatever the sender, and in the session only the workshop has changed. -/
def Withholds (x : Sender → Op Session Bool) (s : Session) : Prop :=
  ∃ e w, ∀ send, (x send).run s = (.error e, { s with toWorkshop := w })

/-- Whether an operation hands a payload to the sender just once, and goes on with what came
back. -/
def SendsOnce (x : Sender → Op Session Bool) (payload : String)
    (conclude : Except Fault Value → Op Session Bool) (s : Session) : Prop :=
  ∃ w, ∀ send, (x send).run s =
    let back := (send payload).run { s with toWorkshop := w }
    (conclude back.1).run back.2

/-- A sender is called once when a payload is delivered. -/
theorem deliver_once (send : Sender) (payload : String) (source : Log.Source) (what : String)
    (s : Session) :
    (deliver send payload source what).run s =
      (deliver (fun _ => liftM ((send payload).run s).1) payload source what).run
        ((send payload).run s).2 := by
  rw [deliver, deliver, run_recover, run_recover, run_bind, run_bind]
  rcases (send payload).run s with ⟨e | v, t⟩
  · rfl
  · rfl

/-- An upload whose stream is composed and not empty is sent once. -/
theorem sendUpload_once (ha : s.agents.lookup name = some a) {w : Workshop}
    (hc : (compose a context).run s.toWorkshop = (.ok stream, w)) (hne : stream.isEmpty = false)
    (hp : stream.framed = .ok payload) :
    SendsOnce (fun send => sendUpload send name context) payload
      (concludeUpload name stream payload) s := by
  have hcompose := run_composeStream ha context
  rw [hc] at hcompose
  have hsent (send : Sender) (u : Session) :
      (deliver send payload .uploadAgent "upload" >>= settleUpload name stream payload).run u =
        (concludeUpload name stream payload ((send payload).run u).1).run
          ((send payload).run u).2 := by
    rw [concludeUpload, run_bind, run_bind, deliver_once]
  have hcomposed (send : Sender) : (sendUpload send name context).run s = (do
      if a.logStreams then
        say .uploadAgent .debug s!"Upload stream ({stream.length} commands): {payload}"
      settleUpload name stream payload (← deliver send payload .uploadAgent "upload") :
        Op Session Bool).run { s with toWorkshop := w } := by
    rw [sendUpload, run_bind_ok hcompose, hne, if_neg Bool.false_ne_true, run_liftM_bind, hp]
    exact run_bind_ok (run_findAgent (s := { s with toWorkshop := w }) ha)
  cases hlog : a.logStreams with
  | false =>
      refine ⟨w, fun send => (hcomposed send).trans ?_⟩
      rw [hlog]
      exact hsent send _
  | true =>
      refine ⟨((Workshop.logged (Log.say .uploadAgent .debug
        s!"Upload stream ({stream.length} commands): {payload}")).run w).2, fun send =>
          (hcomposed send).trans ?_⟩
      rw [hlog]
      exact hsent send _

/-- An upload whose stream is not composed is withheld. -/
theorem sendUpload_withholds (ha : s.agents.lookup name = some a)
    (hc : (compose a context).Fails s.toWorkshop) :
    Withholds (fun send => sendUpload send name context) s := by
  obtain ⟨e, w, hc⟩ := hc
  have hcompose := run_composeStream ha context
  rw [hc] at hcompose
  exact ⟨e, w, fun send => run_bind_error hcompose⟩

/-! ## Uploads under the settings -/

/-- The session in which the upload of an agent runs, strict if the settings say so. -/
def tighten (name : String) (strict : Bool) (s : Session) : Session :=
  changeAgent name (fun b => { b with strict }) s

theorem run_upload (send : Sender) (ha : s.agents.lookup name = some a) :
    (upload send name).run s =
      if s.running then
        ((sendUpload send name .null).ensure (tighten name a.strict) >>= fun sent => do
          if sent then
            Op.update fun s => { s with uploadsSent := s.uploadsSent + 1 }
            return true
          else
            Op.update fun s => { s with errorCount := s.errorCount + 1 }
            return false : Op Session Bool).run (tighten name (a.strict || s.strictActions) s)
      else (say .uplink .warning "Uplink is stopped, upload dropped" >>= fun _ =>
        pure false : Op Session Bool).run s := by
  rw [upload, run_state_bind]
  cases hr : s.running with
  | false => rfl
  | true =>
      rw [Bool.not_true, if_neg Bool.false_ne_true, run_bind_ok (run_findAgent ha)]
      rfl

/-- After an upload the strictness of the agent is what it was. -/
theorem strict_upload (send : Sender) (ha : s.agents.lookup name = some a) {a' : Agent}
    (h : ((upload send name).run s).2.agents.lookup name = some a') : a'.strict = a.strict := by
  let Restored (t : Session) : Prop := ∀ a', t.agents.lookup name = some a' → a'.strict = a.strict
  have htightened (t : Session) : Restored (tighten name a.strict t) := by
    intro a' ha'
    rw [tighten, lookup_changeAgent] at ha'
    obtain ⟨b, -, rfl⟩ := Option.map_eq_some_iff.mp ha'
    rfl
  have hcounted (sent : Bool) : (do
      if sent then
        Op.update fun s => { s with uploadsSent := s.uploadsSent + 1 }
        return true
      else
        Op.update fun s => { s with errorCount := s.errorCount + 1 }
        return false : Op Session Bool).Preserves Restored := by
    refine preserves_ite ?_ ?_
    · exact Preserves.bind (preserves_update fun _ h => h) fun _ => preserves_pure _
    · exact Preserves.bind (preserves_update fun _ h => h) fun _ => preserves_pure _
  rw [run_upload send ha] at h
  split at h
  · rw [run_bind, run_ensure] at h
    split at h
    · rename_i sent t hr
      obtain ⟨-, rfl⟩ := Prod.mk.inj hr
      exact hcounted sent _ (htightened _) a' h
    · rename_i e t hr
      obtain ⟨-, rfl⟩ := Prod.mk.inj hr
      exact htightened _ a' h
  · cases ha.symm.trans h
    rfl

/-- A strict upload is withheld, and leaves the agent as it was, if an unknown action is asked
for. -/
theorem upload_unknown (ha : s.agents.lookup name = some a) (hsetup : a.setup = Agent.coreSetup)
    (hteardown : a.teardown = Agent.coreTeardown) (hsystems : Program.isLoyal a.systems = true)
    (hw : s.toWorkshop.Loyal) (hrunning : s.running = true)
    (hstrict : (a.strict || s.strictActions) = true) {r : Request}
    (hr : r ∈ ({ a with strict := true } : Agent).requests .null s.toWorkshop)
    (hbreaks : r.Breaks) :
    ∃ e t, (∀ send, (upload send name).run s = (.error e, t)) ∧ t.agents.lookup name = some a ∧
      t.uploadsSent = s.uploadsSent ∧ t.errorCount = s.errorCount := by
  have ha' : (tighten name true s).agents.lookup name = some { a with strict := true } := by
    rw [tighten, lookup_changeAgent, ha]
    rfl
  have hcompose : (compose { a with strict := true } .null).Fails s.toWorkshop :=
    Agent.compose_unknown rfl hsetup hteardown hsystems hw hr hbreaks
  obtain ⟨e, w, hsend⟩ := sendUpload_withholds ha' hcompose
  refine ⟨e, tighten name a.strict { tighten name true s with toWorkshop := w },
    fun send => ?_, ?_, rfl, rfl⟩
  · rw [run_upload send ha, if_pos hrunning, hstrict]
    refine run_bind_error ?_
    rw [run_ensure, hsend send]
  · have hlast : ({ tighten name true s with toWorkshop := w } : Session).agents.lookup name =
        some { a with strict := true } := ha'
    rw [tighten, lookup_changeAgent, hlast]
    rfl

/-- The upload of an agent that is fit is withheld, or sends the text of a whole stream once.  If
the agent is strict and an unknown action is asked for, at whatever depth and without its fault
being caught, it is withheld.  So it is if the settings make it strict, and whatever comes of the
upload, the agent is then as strict as it was. -/
theorem upload_whole (s : Session) (name : String) (a : Agent) (context : Value)
    (ha : s.agents.lookup name = some a) (hfit : a.Fit context s.toWorkshop) :
    (Withholds (fun send => sendUpload send name context) s ∨
      ∃ stream payload, a.Composed context s.toWorkshop stream ∧ stream.framed = .ok payload ∧
        SendsOnce (fun send => sendUpload send name context) payload
          (concludeUpload name stream payload) s) ∧
    (Program.isLoyal a.systems = true → s.toWorkshop.Loyal →
      (a.strict = true → (∃ r ∈ a.requests context s.toWorkshop, r.Breaks) →
        Withholds (fun send => sendUpload send name context) s) ∧
      (s.running = true → (a.strict || s.strictActions) = true →
        (∃ r ∈ ({ a with strict := true } : Agent).requests .null s.toWorkshop, r.Breaks) →
        ∃ e t, (∀ send, (upload send name).run s = (.error e, t)) ∧
          t.agents.lookup name = some a ∧ t.uploadsSent = s.uploadsSent ∧
          t.errorCount = s.errorCount)) ∧
    ∀ send a', ((upload send name).run s).2.agents.lookup name = some a' →
      a'.strict = a.strict := by
  refine ⟨?_, fun hsystems hw => ⟨?_, ?_⟩, fun send a' => strict_upload send ha⟩
  · rcases hc : (compose a context).run s.toWorkshop with ⟨e | stream, w⟩
    · exact .inl (sendUpload_withholds ha ⟨e, w, hc⟩)
    · have hcomposed := hfit.composed hc
      obtain ⟨payload, -, hp, -⟩ := stream.exists_framed hcomposed.typed
      have hne : stream.isEmpty = false := by
        obtain ⟨r, w₁, w₂, cs, -, -, -, -, rfl⟩ := hcomposed.parts
        rfl
      exact .inr ⟨stream, payload, hcomposed, hp, sendUpload_once ha hc hne hp⟩
  · rintro hstrict ⟨r, hr, hbreaks⟩
    exact sendUpload_withholds ha
      (Agent.compose_unknown hstrict hfit.setup hfit.teardown hsystems hw hr hbreaks)
  · rintro hrunning hstrict ⟨r, hr, hbreaks⟩
    exact upload_unknown ha hfit.setup hfit.teardown hsystems hw hrunning hstrict hr hbreaks

/-- A keypad with one key. -/
def enterPad : Device :=
  { id := .int 25
    name := .text "UFC"
    actions := [{ name := .text "ENT", code := .int 3001 }] }

theorem typed_enterPad : enterPad.Typed := by
  refine ⟨by decide, fun a ha => ?_⟩
  rw [List.mem_singleton.mp ha]
  exact ⟨by decide, by decide, Value.isInteger_one, Value.isInteger_zero⟩

/-- An agent that presses a key of the keypad that it holds, and then, inside a block and by a
builder of its own, one of the keypad that this builder looks up. -/
def pressing (key : String) (first : String := "ENT") : Agent :=
  let press (pad : DeviceSource Operand) (name : String) : Step :=
    .call (.action pad (.value (.text name)) (.value (.int 0)))
  { systems :=
      [press (.held enterPad) first,
        .block ⟨.onceIf, .value (.text "ready"), .value (.bool true), .value .null, .value .null⟩
          [.splice (.fresh .script true false .null .null
            [press (.named (.value (.text "UFC"))) key]) (.value .null)]] }

/-- A session under strict settings, with such an agent. -/
def keyed (key : String) (first : String := "ENT") : Session :=
  { airframe := some { name := .text "F-16", devices := [enterPad] }
    files := { root := "/" }
    bridge := { timeout := .int 5 }
    agents := [("F-16", pressing key first)]
    settings := { strictActions := .bool true } }

theorem fit_pressing {key first : String}
    (horderly : (pressing key first).isOrderly .null (keyed key first).toWorkshop)
    (hasked : ((pressing key first).requests .null (keyed key first).toWorkshop).map
      Request.asked <+: [.inl (.action (.held enterPad) (.text first) (.int 0)),
        .inr ⟨.onceIf, .text "ready", .bool true, .null, .null⟩,
        .inl (.action (.named (.text "UFC")) (.text key) (.int 0))]) :
    (pressing key first).Fit .null (keyed key first).toWorkshop where
  setup := rfl
  teardown := rfl
  framed := ⟨fun _ => Builder.framed_new rfl rfl, nofun⟩
  oneQuery := fun _ => Nat.zero_le 1
  typed := by
    refine ⟨fun _ => ⟨nofun, nofun⟩, ?_⟩
    rintro _ ⟨⟩ d hd
    rw [List.mem_singleton.mp hd]
    exact typed_enterPad
  orderly := horderly
  requests := by
    intro r hr
    have hmem := hasked.subset (List.mem_map_of_mem (f := Request.asked) hr)
    rw [Request.Typed]
    rcases List.mem_cons.mp hmem with h | hmem
    · rw [h]
      exact ⟨Value.isInteger_zero, fun _ hv => Option.some.inj hv ▸ typed_enterPad⟩
    rcases List.mem_cons.mp hmem with h | hmem
    · rw [h]
      exact ⟨rfl, ⟨_, rfl⟩, nofun⟩
    · rw [List.mem_singleton.mp hmem]
      exact ⟨Value.isInteger_zero, fun _ hv => Option.some.inj hv ▸ trivial⟩

theorem upload_whole_pressing :
    (∃ stream payload, (pressing "ENT").Composed .null (keyed "ENT").toWorkshop stream ∧
      stream.framed = .ok payload ∧
      SendsOnce (fun send => sendUpload send "F-16" .null) payload
        (concludeUpload "F-16" stream payload) (keyed "ENT")) ∧
    (∃ e t, (∀ send, (upload send "F-16").run (keyed "ENT" "ENTR") = (.error e, t)) ∧
      t.agents.lookup "F-16" = some (pressing "ENT" "ENTR")) ∧
    ∃ e t, (∀ send, (upload send "F-16").run (keyed "ENTR") = (.error e, t)) ∧
      t.agents.lookup "F-16" = some (pressing "ENTR") := by
  obtain ⟨hsent, -⟩ := upload_whole (keyed "ENT") "F-16" (pressing "ENT") .null rfl
    (fit_pressing rfl List.prefix_rfl)
  obtain ⟨-, hfirst, -⟩ := upload_whole (keyed "ENT" "ENTR") "F-16" (pressing "ENT" "ENTR") .null
    rfl (fit_pressing rfl ⟨_, rfl⟩)
  obtain ⟨-, hsecond, -⟩ := upload_whole (keyed "ENTR") "F-16" (pressing "ENTR") .null
    rfl (fit_pressing rfl ⟨_, rfl⟩)
  have hloyal (key first : String) : (keyed key first).toWorkshop.Loyal := fun _ => rfl
  refine ⟨hsent.resolve_left ?_, ?_, ?_⟩
  · rintro ⟨e, w, h⟩
    have hok : ((sendUpload (fun _ => pure (.bool true)) "F-16" .null).run (keyed "ENT")).1 =
      .ok true := rfl
    rw [h] at hok
    cases hok
  · obtain ⟨-, hstrict⟩ := hfirst rfl (hloyal _ _)
    obtain ⟨e, t, hrun, hagent, -⟩ := hstrict rfl rfl ⟨_, .head _, rfl,
      _, _, _, rfl, .action rfl, rfl⟩
    exact ⟨e, t, hrun, hagent⟩
  · obtain ⟨-, hstrict⟩ := hsecond rfl (hloyal _ _)
    obtain ⟨e, t, hrun, hagent, -⟩ := hstrict rfl rfl ⟨_, .tail _ (.tail _ (.head _)), rfl,
      _, _, _, rfl, .action rfl, rfl⟩
    exact ⟨e, t, hrun, hagent⟩

end Session

end Cockpit
