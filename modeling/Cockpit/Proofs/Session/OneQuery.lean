import Cockpit.Proofs.Builder.OneQuery
import Cockpit.Session.Program

/-!
# At most one query in a stream, in a session

Whatever is done in a session, no stream of a builder holds two queries.  A session
changes its builders by steps, by building them before it sends, and by composing uploads
on builders of their own.  All of these are operations on its workshop, and its other
operations leave the builders alone.

`Deed.run_oneQuery` says this of every deed, with all that is done while its payload is on
the way.  `Workshop.Stage` lists the workshops that steps and deeds lead to, those in the
middle of a block, of a splice and of a deed too.  `Workshop.Stage.streams_oneQuery` is the
result for all of them, with the refusals that keep a second query out.
-/

namespace Cockpit

open Op Workshop

namespace Session

variable {α : Type} {send : Sender} {meanwhile : Nat → Op Session Unit}

/-- Whether no builder of a session has two queries in its stream. -/
def OneQuery (s : Session) : Prop := s.toWorkshop.OneQuery

/-! ## Parts -/

theorem workshop_oneQuery {x : Op Workshop α} (hx : x.Preserves Workshop.OneQuery) :
    (x.on workshopPart).Preserves OneQuery := hx.on (fun _ h => h) fun _ _ _ h => h

theorem line_oneQuery (x : Op Line α) : (x.on linePart).Preserves OneQuery :=
  preserves_on x fun _ _ h => Workshop.OneQuery.of_benches h rfl

theorem config_oneQuery (x : Op Config α) : (x.on configPart).Preserves OneQuery :=
  preserves_on x fun _ _ h => Workshop.OneQuery.of_benches h rfl

theorem say_oneQuery (source : Log.Source) (level : Log.Level) (text : String) :
    (say source level text).Preserves OneQuery := workshop_oneQuery (preserves_logged _)

theorem findBuilder_oneQuery (t : Target) : (findBuilder t).Preserves OneQuery :=
  workshop_oneQuery (find_oneQuery t)

theorem build_oneQuery (id : BuilderId) (context : Value) :
    (Workshop.build id context).Preserves Workshop.OneQuery :=
  Builder.build_oneQuery Builder.depthLimit id context

theorem read_oneQuery (id : BuilderId) (f : Builder → α) :
    (read id f).Preserves Workshop.OneQuery := preserves_state.bind fun _ => preserves_pure _

/-! ## Sending -/

theorem sender_oneQuery (hm : ∀ place, (meanwhile place).Preserves OneQuery) (ending : Ending)
    (payload : String) : (sender meanwhile ending payload).Preserves OneQuery := by
  refine preserves_state.bind fun s => Preserves.bind (preserves_update fun _ h => h) fun _ => ?_
  exact (hm _).bind fun _ => preserves_liftM _

theorem deliver_oneQuery (hs : ∀ payload, (send payload).Preserves OneQuery) (payload : String)
    (source : Log.Source) (what : String) :
    (deliver send payload source what).Preserves OneQuery := by
  refine Preserves.recover ?_ fun f => ?_
  · exact (hs payload).bind fun _ => preserves_pure _
  · exact (say_oneQuery _ _ _).bind fun _ => preserves_pure _

theorem deliverQuery_oneQuery (hs : ∀ payload, (send payload).Preserves OneQuery)
    (stream : Stream) : (deliverQuery send stream).Preserves OneQuery := by
  have hdeliver payload := deliver_oneQuery hs payload .queryBridge "query"
  refine (preserves_liftM _).bind fun payload => preserves_state.bind fun s => ?_
  refine preserves_ite ?_ ?_
  · exact (line_oneQuery _).bind fun _ => hdeliver payload
  · exact hdeliver payload

/-! ## Queries -/

theorem ask_oneQuery (hs : ∀ payload, (send payload).Preserves OneQuery) (stream : Stream)
    (wait : Value) : (ask send stream wait).Preserves OneQuery := by
  refine preserves_ite (preserves_stop _) (preserves_state.bind fun s => ?_)
  refine (line_oneQuery _).bind fun t => ?_
  cases t with
  | none => exact preserves_pure _
  | some t =>
      refine Preserves.ensure ?_ fun _ h => h
      exact (deliverQuery_oneQuery hs stream).bind fun _ =>
        preserves_ite (line_oneQuery _) (line_oneQuery _)

theorem query_oneQuery (hs : ∀ payload, (send payload).Preserves OneQuery)
    (fn args wait : Value) : (query send fn args wait).Preserves OneQuery :=
  (preserves_liftM _).bind fun stream => ask_oneQuery hs stream wait

theorem abandonedQuery_oneQuery (hs : ∀ payload, (send payload).Preserves OneQuery)
    (fn args : Value) : (abandonedQuery send fn args).Preserves OneQuery := by
  refine (preserves_liftM _).bind fun stream => (line_oneQuery _).bind fun t => ?_
  cases t with
  | none => exact preserves_pure _
  | some t =>
      refine Preserves.ensure ?_ fun _ h => h
      refine (deliverQuery_oneQuery hs stream).bind fun _ => preserves_ite ?_ ?_
      · have hrest (waiting : Bool) : (do
            let _ ← (Line.conclude t .null).on linePart
            return waiting : Op Session Bool).Preserves OneQuery :=
          (line_oneQuery _).bind fun _ => preserves_pure _
        refine preserves_state.bind fun s => preserves_ite ?_ (hrest _)
        exact (line_oneQuery _).bind fun _ => hrest _
      · exact (line_oneQuery _).bind fun _ => preserves_pure _

theorem askWith_oneQuery (hs : ∀ payload, (send payload).Preserves OneQuery) (id : BuilderId)
    (wait : Value) : (askWith send id wait).Preserves OneQuery := by
  refine (workshop_oneQuery (read_oneQuery id _)).bind fun b => ?_
  refine preserves_ite (preserves_stop _) (preserves_ite (preserves_stop _) ?_)
  have hrest : (do
      let stream ← (Workshop.read id Builder.stream).on workshopPart
      say .queryBuilder .debug s!"{b.kind.name} submitting {stream.length} commands"
      ask send stream wait : Op Session Value).Preserves OneQuery := by
    refine (workshop_oneQuery (read_oneQuery id _)).bind fun stream => ?_
    exact (say_oneQuery _ _ _).bind fun _ => ask_oneQuery hs stream wait
  refine preserves_ite ?_ hrest
  exact (workshop_oneQuery (build_oneQuery id .null)).bind fun _ => hrest

theorem connect_oneQuery (id : BuilderId) : (connect id).Preserves OneQuery :=
  workshop_oneQuery (preserves_update fun _ h => h.change (h id))

theorem askUnderSettings_oneQuery (hs : ∀ payload, (send payload).Preserves OneQuery)
    (id : BuilderId) (wait : Value) : (askUnderSettings send id wait).Preserves OneQuery := by
  have hstrict (b : Bool) (w : Workshop) (h : w.OneQuery) :
      (w.changeBuilder id fun n => { n with strict := b }).OneQuery := h.change (h id)
  refine (connect_oneQuery id).bind fun _ => ?_
  refine (workshop_oneQuery (read_oneQuery id _)).bind fun strict => ?_
  refine preserves_state.bind fun s => ?_
  refine Preserves.bind (workshop_oneQuery (preserves_update (hstrict _))) fun _ => ?_
  exact (askWith_oneQuery hs id wait).ensure fun s h => hstrict strict _ h

/-! ## Telemetry -/

theorem answer_oneQuery (r : Value) : (answer r).Preserves OneQuery := line_oneQuery _

theorem receive_oneQuery (raw : Value) : (receive raw).Preserves OneQuery := by
  refine preserves_state.bind fun s => ?_
  refine (workshop_oneQuery (preserves_logged _)).bind fun r => ?_
  refine Preserves.bind (preserves_update fun _ h => h) fun _ => ?_
  cases r.2 with
  | some p => exact (answer_oneQuery _).bind fun _ => preserves_pure _
  | none =>
      refine preserves_ite ?_ (preserves_pure _)
      exact Preserves.bind (preserves_update fun _ h => h) fun _ => preserves_pure _

theorem stop_oneQuery : stop.Preserves OneQuery := by
  refine preserves_state.bind fun s => preserves_ite (say_oneQuery _ _ _) ?_
  refine (say_oneQuery _ _ _).bind fun _ => ?_
  refine Preserves.bind (preserves_update fun _ h => h) fun _ => ?_
  exact (line_oneQuery _).bind fun _ => say_oneQuery _ _ _

/-! ## Uploads -/

theorem findAgent_oneQuery (name : String) : (findAgent name).Preserves OneQuery := by
  refine preserves_state.bind fun s => ?_
  cases s.agents.lookup name with
  | none => exact preserves_stop _
  | some a => exact preserves_pure a

theorem changeAgent_oneQuery (name : String) (f : Agent → Agent) :
    (Op.update (changeAgent name f)).Preserves OneQuery := preserves_update fun _ h => h

theorem compose_oneQuery (a : Agent) (context : Value) :
    (compose a context).Preserves Workshop.OneQuery := by
  have hadd : (Workshop.add ⟨{ strict := a.strict }, []⟩).Preserves Workshop.OneQuery := by
    intro w hw
    exact hw.withBench rfl rfl
  refine hadd.bind fun id => (find_oneQuery _).bind fun setup => ?_
  refine (splice_oneQuery build_oneQuery id setup context).bind fun _ => ?_
  refine (Program.run_oneQuery build_oneQuery a.systems id context).bind fun _ => ?_
  refine (find_oneQuery _).bind fun teardown => ?_
  exact (splice_oneQuery build_oneQuery id teardown context).bind fun _ => read_oneQuery id _

theorem composeStream_oneQuery (name : String) (context : Value) :
    (composeStream name context).Preserves OneQuery :=
  (findAgent_oneQuery name).bind fun a => workshop_oneQuery (compose_oneQuery a context)

theorem sendUpload_oneQuery (hs : ∀ payload, (send payload).Preserves OneQuery) (name : String)
    (context : Value) : (sendUpload send name context).Preserves OneQuery := by
  refine (composeStream_oneQuery name context).bind fun stream => preserves_ite ?_ ?_
  · exact (say_oneQuery _ _ _).bind fun _ => preserves_pure _
  · refine (preserves_liftM _).bind fun payload => (findAgent_oneQuery name).bind fun a => ?_
    have hsent {f : Agent → Agent} {source : Log.Source} {level : Log.Level} {text : String}
        {b : Bool} : (do
          Op.update (changeAgent name f)
          say source level text
          return b : Op Session Bool).Preserves OneQuery :=
      (changeAgent_oneQuery name f).bind fun _ => (say_oneQuery _ _ _).bind fun _ =>
        preserves_pure b
    have hdeliver := deliver_oneQuery hs payload .uploadAgent "upload"
    refine preserves_ite ?_ ?_
    · refine (say_oneQuery _ _ _).bind fun _ => ?_
      exact hdeliver.bind fun _ => preserves_ite hsent hsent
    · exact hdeliver.bind fun _ => preserves_ite hsent hsent

theorem upload_oneQuery (hs : ∀ payload, (send payload).Preserves OneQuery) (name : String) :
    (upload send name).Preserves OneQuery := by
  have hset (b : Bool) (s : Session) (h : OneQuery s) :
      OneQuery (changeAgent name (fun a => { a with strict := b }) s) := h
  refine preserves_state.bind fun s => preserves_ite ?_ ?_
  · exact (say_oneQuery _ _ _).bind fun _ => preserves_pure _
  · refine (findAgent_oneQuery name).bind fun a => (changeAgent_oneQuery name _).bind fun _ => ?_
    refine ((sendUpload_oneQuery hs name .null).ensure (hset a.strict)).bind fun sent => ?_
    refine preserves_ite ?_ ?_
    · exact Preserves.bind (preserves_update fun _ h => h) fun _ => preserves_pure _
    · exact Preserves.bind (preserves_update fun _ h => h) fun _ => preserves_pure _

/-! ## Steps from outside -/

theorem runStep_oneQuery (t : Target) (step : Step) : (runStep t step).Preserves OneQuery := by
  refine (findBuilder_oneQuery t).bind fun id => ?_
  exact (workshop_oneQuery (Step.run_oneQuery build_oneQuery step id .null)).bind fun _ =>
    preserves_pure _

theorem showStream_oneQuery (agent : String) (context : Value) :
    (showStream agent context).Preserves OneQuery := by
  refine (composeStream_oneQuery agent context).bind fun stream => ?_
  exact (preserves_liftM _).bind fun _ => preserves_pure _

end Session

/-! ## Deeds -/

open Session

mutual

/-- No deed gives a stream a second query. -/
theorem Deed.run_oneQuery : ∀ d : Deed, d.run.Preserves Session.OneQuery
  | .query fn args wait ds e => by
      rw [Deed.run]
      have hs := sender_oneQuery (Deed.runAll_oneQuery ds) e
      exact (query_oneQuery hs fn args wait).bind fun _ => preserves_pure _
  | .ask stream wait ds e => by
      rw [Deed.run]
      have hs := sender_oneQuery (Deed.runAll_oneQuery ds) e
      exact (ask_oneQuery hs stream wait).bind fun _ => preserves_pure _
  | .abandonedQuery fn args ds e => by
      rw [Deed.run]
      have hs := sender_oneQuery (Deed.runAll_oneQuery ds) e
      exact (abandonedQuery_oneQuery hs fn args).bind fun _ => preserves_state.bind fun _ =>
        preserves_pure _
  | .askWith t connected wait ds e => by
      rw [Deed.run]
      have hs := sender_oneQuery (Deed.runAll_oneQuery ds) e
      have hask id := (askWith_oneQuery hs id wait).bind fun v => preserves_pure (Answer.value v)
      refine (findBuilder_oneQuery t).bind fun id => preserves_ite ?_ (hask id)
      exact (connect_oneQuery id).bind fun _ => hask id
  | .askUnderSettings t wait ds e => by
      rw [Deed.run]
      have hs := sender_oneQuery (Deed.runAll_oneQuery ds) e
      refine (findBuilder_oneQuery t).bind fun id => ?_
      exact (askUnderSettings_oneQuery hs id wait).bind fun _ => preserves_pure _
  | .respond r => by
      rw [Deed.run]
      exact (answer_oneQuery r).bind fun _ => preserves_pure _
  | .close => by
      rw [Deed.run]
      exact (line_oneQuery _).bind fun _ => preserves_pure _
  | .reopen => by
      rw [Deed.run]
      exact (line_oneQuery _).bind fun _ => preserves_pure _
  | .lineState => by
      rw [Deed.run]
      exact preserves_state.bind fun _ => preserves_pure _
  | .builderStep t step => by
      rw [Deed.run]
      exact runStep_oneQuery t step
  | .inspect t => by
      rw [Deed.run]
      refine (findBuilder_oneQuery t).bind fun id => ?_
      exact (workshop_oneQuery (read_oneQuery id _)).bind fun _ => preserves_pure _
  | .composeStream a context => by
      rw [Deed.run]
      exact showStream_oneQuery a context
  | .sendUpload a context ds e => by
      rw [Deed.run]
      have hs := sender_oneQuery (Deed.runAll_oneQuery ds) e
      exact (sendUpload_oneQuery hs a context).bind fun _ => preserves_pure _
  | .agentStatus a => by
      rw [Deed.run]
      exact (findAgent_oneQuery a).bind fun _ => preserves_pure _
  | .upload a ds e => by
      rw [Deed.run]
      have hs := sender_oneQuery (Deed.runAll_oneQuery ds) e
      exact (upload_oneQuery hs a).bind fun _ => preserves_pure _
  | .telemetry raw => by
      rw [Deed.run]
      exact (receive_oneQuery raw).bind fun _ => preserves_pure _
  | .stop => by
      rw [Deed.run]
      exact stop_oneQuery.bind fun _ => preserves_pure _
  | .strictActions => by
      rw [Deed.run]
      exact preserves_state.bind fun _ => preserves_pure _
  | .configure act => by
      rw [Deed.run]
      exact (config_oneQuery _).bind fun _ => preserves_pure _
  | .fail f => by
      rw [Deed.run]
      exact preserves_stop f
termination_by structural d => d

/-- Nor do deeds one after another. -/
theorem Deed.runAll_oneQuery : ∀ (ds : List Deed) (place : Nat),
    (Deed.runAll ds place).Preserves Session.OneQuery
  | [], place => by
      rw [Deed.runAll]
      exact preserves_pure ()
  | d :: ds, place => by
      rw [Deed.runAll]
      refine (Deed.run_oneQuery d).attempt.bind fun r => ?_
      exact Preserves.bind (preserves_update fun _ h => h) fun _ => Deed.runAll_oneQuery ds place
termination_by structural ds => ds

end

/-! ## All workshops on the way -/

namespace Workshop

/-- The workshops that steps and deeds lead to: those after a step or a deed, and those in
which a step of the body of a block, of a builder that is spliced, or of a deed's sender
begins. -/
inductive Stage : Workshop → Prop where
  | start {w : Workshop} (hb : w.benches = []) : Stage w
  /-- What is not a builder may change. -/
  | beside {w w' : Workshop} (h : Stage w) (hb : w'.benches = w.benches) : Stage w'
  /-- A new builder is made. -/
  | made {w : Workshop} {b : Bench} (h : Stage w) (hs : b.builder.stream = [])
      (hc : b.builder.openConditions = []) : Stage (w.withBench b)
  /-- What a builder has beside its stream changes. -/
  | altered {w : Workshop} {f : Builder → Builder} (h : Stage w)
      (hf : ∀ b, (f b).stream = b.stream) (id : BuilderId) : Stage (w.changeBuilder id f)
  | step {w : Workshop} (depth : Nat) (id : BuilderId) (context : Value) (s : Step)
      (h : Stage w) : Stage ((s.run (Builder.build depth) id context).run w).2
  /-- A block was opened. -/
  | opened {w : Workshop} {head : BlockHead Value} {c : Command} (h : Stage w)
      (hc : head.opener = .ok c) (id : BuilderId) (condition : Value) :
      Stage (w.opened id condition c)
  /-- A builder was made ready to be spliced. -/
  | lent {w : Workshop} (h : Stage w) (id other : BuilderId) : Stage (w.lent id other)
  | deed {s : Session} (d : Deed) (h : Stage s.toWorkshop) : Stage (d.run.run s).2.toWorkshop

variable {w : Workshop} {id other : BuilderId} {context : Value}

theorem Stage.oneQuery (h : Stage w) : w.OneQuery := by
  induction h with
  | @start w hb =>
      intro id
      rw [builder_of_length_le (by rw [hb]; exact Nat.zero_le _)]
      exact Nat.zero_le 1
  | beside _ hb ih => exact ih.of_benches hb
  | made _ hs hc ih => exact ih.withBench hs hc
  | altered _ hf id ih =>
      refine ih.change ?_
      rw [hf]
      exact ih id
  | step depth id context s _ ih =>
      exact Step.run_oneQuery (Builder.build_oneQuery depth) s id context _ ih
  | opened _ hc id condition ih => exact ih.opened hc id condition
  | lent _ id other ih => exact ih.lent id other
  | deed d _ ih => exact Deed.run_oneQuery d _ ih

/-- A second query is refused by a builder, which stays as it was. -/
theorem run_secondQuery (hq : (w.builder id).stream.queries ≠ 0) (fn args : Value) :
    (call id (.query fn args)).run w = (.error (.secondQuery fn), w) := by
  have happly : ((w.builder id).apply (.query fn args)).run w.journal =
      (.error (.secondQuery fn), w.journal) :=
    run_bind_error (Builder.run_query_refused hq fn args w.journal)
  rw [run_call, happly]

/-- A splice that would give a builder two queries is refused, once the other builder has
built. -/
theorem run_splicedQuery {build : Building} {t : Workshop}
    (hb : (build other context).run (w.lent id other) = (.ok (), t))
    (hq : 1 < (t.builder id).stream.queries + (t.builder other).stream.queries) :
    ∃ u, (splice build id other context).run w =
        (.error (.splicedQuery (t.builder other).kind.name), u) ∧
      ∀ i, (u.builder i).stream = (t.builder i).stream := by
  rw [run_splice]
  dsimp only
  rw [hb]
  dsimp only
  generalize (w.changeBuilder other Builder.clear).builder other = before
  generalize hu : t.changeBuilder other (giveBack before) = u
  have hparts (i : BuilderId) : (u.builder i).stream = (t.builder i).stream ∧
      (u.builder i).kind = (t.builder i).kind := by
    rw [← hu]
    rcases builder_changeBuilder_cases other (giveBack before) t i with hi | ⟨rfl, hi⟩
    · rw [hi]
      exact ⟨rfl, rfl⟩
    · rw [hi]
      exact ⟨rfl, rfl⟩
  have htake := run_takeOver id other u
  rw [(hparts id).1, (hparts other).1, (hparts other).2, if_pos hq] at htake
  exact ⟨u, htake, fun i => (hparts i).1⟩

/-- At every moment no stream of a builder has two queries.  A builder whose stream has one
refuses another one and stays as it was, and a splice is refused if the two builders have
two queries together once the other one has built. -/
theorem Stage.streams_oneQuery (h : Stage w) :
    (∀ id, (w.builder id).stream.queries ≤ 1) ∧
    (∀ id fn args, (w.builder id).stream.queries = 1 →
      (call id (.query fn args)).run w = (.error (.secondQuery fn), w)) ∧
    (∀ depth id other context t,
      (Builder.build depth other context).run (w.lent id other) = (.ok (), t) →
        1 < (t.builder id).stream.queries + (t.builder other).stream.queries →
          ∃ u, (splice (Builder.build depth) id other context).run w =
              (.error (.splicedQuery (t.builder other).kind.name), u) ∧
            ∀ i, (u.builder i).stream = (t.builder i).stream) := by
  refine ⟨h.oneQuery, ?_, ?_⟩
  · intro id fn args hq
    refine run_secondQuery ?_ fn args
    rw [hq]
    exact Nat.one_ne_zero
  · intro depth id other context t hb hq
    exact run_splicedQuery hb hq

/-- Two builders: one that has nothing to build, and one with a query of its own. -/
def pair : Workshop :=
  ((({} : Workshop).withBench {}).withBench
    ⟨{ kind := .query, fn := .text "GetFuel" }, []⟩)

theorem Stage.streams_oneQuery_refused :
    ∃ w, Stage w ∧ (w.builder 0).stream = [.query (.text "GetMode") []] ∧
      (call 0 (.query (.text "GetSpeed") .null)).run w =
        (.error (.secondQuery (.text "GetSpeed")), w) ∧
      ∃ u, (splice (Builder.build 1) 0 1 .null).run w =
          (.error (.splicedQuery "QueryBuilder"), u) ∧
        (u.builder 0).stream = [.query (.text "GetMode") []] ∧
        (u.builder 1).stream = [.query (.text "GetFuel") []] := by
  have hpair : Stage pair := .made (.made (.start rfl) rfl rfl) rfl rfl
  have hstep := hpair.step 1 0 .null (.call (.query (.value (.text "GetMode")) (.value .null)))
  obtain ⟨-, hcall, hsplice⟩ := hstep.streams_oneQuery
  obtain ⟨u, hu, hsame⟩ := hsplice 1 0 1 .null _ rfl (by decide)
  exact ⟨_, hstep, rfl, hcall 0 _ _ rfl, u, hu, hsame 0, hsame 1⟩

end Workshop

end Cockpit
