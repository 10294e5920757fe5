import Cockpit.Builder.Program

/-!
# Workshops

A workshop holds the builders of a run, the airframe that they share and the
journal that they write.  A builder is known by its place, and a name may stand
for one.  Builders are added and never removed, so a place stays valid.

Beside each builder stands its program.
-/

namespace Cockpit

/-- The place of a builder in a workshop. -/
abbrev BuilderId := Nat

/-- A builder with its program. -/
structure Bench where
  builder : Builder := {}
  program : Program := []
  deriving Inhabited

/-- The builders of a run and what they share. -/
structure Workshop where
  airframe : Option Airframe := none
  benches : List Bench := []
  names : List (String × BuilderId) := []
  /-- How the attempts ended so far, with the fault of those that failed. -/
  caught : List (Option Fault) := []
  journal : Log.Journal := {}
  deriving Inhabited

namespace Workshop

/-! ## Parts -/

def journalPart : Op.Part Workshop Log.Journal where
  get w := w.journal
  set j w := { w with journal := j }

/-- The bench at a place. -/
def bench (w : Workshop) (id : BuilderId) : Bench := w.benches[id]?.getD {}

/-- The builder at a place. -/
def builder (w : Workshop) (id : BuilderId) : Builder := (w.bench id).builder

/-- The workshop with another builder at a place. -/
def setBuilder (id : BuilderId) (b : Builder) (w : Workshop) : Workshop :=
  { w with benches := w.benches.modify id fun n => { n with builder := b } }

/-- The workshop with the builder at a place changed. -/
def changeBuilder (id : BuilderId) (f : Builder → Builder) (w : Workshop) : Workshop :=
  w.setBuilder id (f (w.builder id))

theorem builder_setBuilder_self {w : Workshop} {id : BuilderId} (h : id < w.benches.length)
    (b : Builder) : (w.setBuilder id b).builder id = b := by
  simp [builder, bench, setBuilder, h]

theorem builder_setBuilder_of_ne (w : Workshop) {id other : BuilderId} (h : other ≠ id)
    (b : Builder) : (w.setBuilder id b).builder other = w.builder other := by
  simp [builder, bench, setBuilder, Ne.symm h]

/-! ## Operations -/

/-- Runs an operation that only logs. -/
def logged {α : Type} (x : Op Log.Journal α) : Op Workshop α := x.on journalPart

/-- Reads something off the builder at a place. -/
def read {α : Type} (id : BuilderId) (f : Builder → α) : Op Workshop α := do
  return f ((← .state).builder id)

/-- Changes the builder at a place. -/
def change (id : BuilderId) (f : Builder → Builder) : Op Workshop Unit :=
  .update (changeBuilder id f)

/-- Performs a call on the builder at a place. -/
def call (id : BuilderId) (c : Call Value) : Op Workshop Reply := do
  let (b, r) ← logged ((← read id fun b => b).apply c)
  change id fun _ => b
  return r

/-- Adds a bench, and gives its place. -/
def add (b : Bench) : Op Workshop BuilderId := do
  let id := (← .state).benches.length
  .update fun w => { w with benches := w.benches ++ [b] }
  return id

/-- The place of a target, which is made if it is a new one. -/
def find : Target → Op Workshop BuilderId
  | .named n => do
    match (← .state).names.lookup n with
    | some id => return id
    | none => .stop (.missingKey n)
  | .fresh kind equipped strict fn args program => do
    let args ← if kind.asks then args.itemsIfSet else pure []
    let shared := (← .state).airframe
    let airframe := if equipped then shared else none
    add ⟨{ kind, airframe, strict, fn, args }, program⟩

/-- Gives a name to a target. -/
def define (name : String) (t : Target) : Op Workshop Unit := do
  let id ← find t
  .update fun w => { w with names := w.names ++ [(name, id)] }

end Workshop

end Cockpit
