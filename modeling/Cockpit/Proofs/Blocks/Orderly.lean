import Cockpit.Proofs.Builder.Runs

/-!
# Orderly programs

A builder is *busy* while it has an open block or is building.  A program is
orderly when it empties and splices only builders that are not busy, names the
conditions of its blocks by texts, and cuts no stream by hand.

Whether a builder is busy depends on the run, since a program may build other
builders and go on after faults.  So being orderly is computed along the run: of
each step in the state in which it runs.  The builders that are busy are a list
that grows around the body of a block and around a build.
-/

namespace Cockpit

/-- Whether what an operation gives has a property, if it gives a result. -/
def Op.after {σ α : Type} (x : Op σ α) (s : σ) (p : α → σ → Bool) : Bool :=
  match x.run s with
  | (.ok a, t) => p a t
  | (.error _, _) => true

theorem Op.after_ok {σ α : Type} {x : Op σ α} {s t : σ} {a : α} (hx : x.run s = (.ok a, t))
    (p : α → σ → Bool) : x.after s p = p a t := by
  rw [Op.after, hx]

/-- Whether a value is a text. -/
def Value.isText : Value → Bool
  | .text _ => true
  | _ => false

/-- Whether a call keeps to the order while some builders are busy. -/
def Call.isOrderly (busy : List BuilderId) (id : BuilderId) : Call Value → Bool
  | .clear => !busy.contains id
  | .truncate _ => false
  | _ => true

/-- How it is decided whether the build of a builder is orderly, when some builders
are busy, in a context and a workshop. -/
abbrev Discipline := List BuilderId → BuilderId → Value → Workshop → Bool

/-- The condition of a block that a step opens. -/
def Step.openCondition (id : BuilderId) (context : Value) (head : BlockHead Operand) :
    Op Workshop Value := do
  let h ← head.resolve context
  let opener ← h.opener
  let _ ← Workshop.openBlock id h.condition opener
  return h.condition

/-- The builder that a step splices, and the context for it. -/
def Step.spliced (context : Value) (target : Target) (c : Operand) :
    Op Workshop (BuilderId × Value) := do
  let other ← Workshop.find target
  return (other, ← c.resolve context)

mutual

/-- Whether a step is orderly. -/
def Step.isOrderly (build : Building) (inner : Discipline) (busy : List BuilderId)
    (id : BuilderId) (context : Value) : Step → Workshop → Bool
  | .call c, w =>
    (liftM (c.resolve context) : Op Workshop _).after w fun c _ => c.isOrderly busy id
  | .block head body, w =>
    (Step.openCondition id context head).after w fun condition w =>
      condition.isText && Program.isOrderly build inner (id :: busy) id context body w
  | .splice target c, w =>
    (Step.spliced context target c).after w fun (other, context) w =>
      !busy.contains other && inner (other :: busy) other context (w.lent id other)
  | .build c, w =>
    (liftM (c.resolve context) : Op Workshop _).after w fun context w =>
      inner (id :: busy) id context w
  | .raise _, _ => true
  | .attempt body, w => Program.isOrderly build inner busy id context body w
  | .on target step, w =>
    (Workshop.find target).after w fun other w =>
      Step.isOrderly build inner busy other context step w
  | .inspect _, _ => true
termination_by structural s => s

/-- Whether steps in order are orderly. -/
def Program.isOrderly (build : Building) (inner : Discipline) (busy : List BuilderId)
    (id : BuilderId) (context : Value) : List Step → Workshop → Bool
  | [], _ => true
  | s :: ss, w =>
    Step.isOrderly build inner busy id context s w &&
      (Step.run build id context s).after w fun _ w =>
        Program.isOrderly build inner busy id context ss w
termination_by structural ss => ss

end

/-- Whether the build of a builder is orderly, where builders may build inside one
another to a depth. -/
def Builder.isOrderly : (depth : Nat) → Discipline
  | 0, _, _, _, _ => true
  | depth + 1, busy, id, context, w =>
    match (w.builder id).kind with
    | .script | .scriptQuery =>
      Program.isOrderly (Builder.build depth) (Builder.isOrderly depth) busy id context
        (w.bench id).program w
    | _ => true

/-! ## Runs of calls from outside -/

/-- The workshops that calls from outside lead to: builders are made, and steps are
taken on them, each of which may end in a fault. -/
inductive Workshop.Reached (depth : Nat) : Workshop → Prop where
  /-- A workshop without builders. -/
  | start {w : Workshop} : w.benches = [] → w.names = [] → Reached depth w
  /-- A builder gets a name, and is made if it is new. -/
  | define {w : Workshop} (name : String) (target : Target) :
      Reached depth w → Reached depth ((define name target).run w).2
  /-- A step on a builder, while none is busy. -/
  | step {w : Workshop} {id : BuilderId} (context : Value) (s : Step) :
      Reached depth w → id < w.benches.length →
      Step.isOrderly (Builder.build depth) (Builder.isOrderly depth) [] id context s w →
      Reached depth ((Step.run (Builder.build depth) id context s).run w).2

end Cockpit
