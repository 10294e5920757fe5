import Cockpit.Builder.Workshop

/-!
# Running builder programs

A step runs on a builder of a workshop in a context.  How a builder builds is a
parameter of the steps, so they are defined by recursion on the program alone.
`Builder.build` closes the knot.  It bounds how deep builders may build inside
one another, because a builder may splice itself.

A block pushes its condition and its opener, runs its body and appends its
closer.  If the body fails, the stream is cut back to where it was.  A splice
runs the other builder on an empty stream, with the open conditions and the
strictness of the one that takes its commands over.  Both are given back
afterwards, whatever happened.
-/

namespace Cockpit

/-- How a builder builds in a context. -/
abbrev Building := BuilderId → Value → Op Workshop Unit

namespace Workshop

/-! ## Blocks -/

/-- Opens a block, unless its condition is open already. -/
def openBlock (id : BuilderId) (condition : Value) (opener : Command) : Op Workshop Nat := do
  let b ← read id fun b => b
  if b.openConditions.any (·.same condition) then .stop (.openCondition condition)
  else
    change id fun b =>
      { b.append [opener] with openConditions := b.openConditions ++ [condition] }
    return b.stream.length

/-- Cuts the stream of a builder back to a length. -/
def cutBack (id : BuilderId) (length : Nat) : Workshop → Workshop :=
  changeBuilder id fun b => { b with stream := b.stream.take length }

/-- Forgets the condition that was opened last. -/
def dropCondition (id : BuilderId) : Workshop → Workshop :=
  changeBuilder id fun b => { b with openConditions := b.openConditions.dropLast }

/-- A block around a body. -/
def block (id : BuilderId) (h : BlockHead Value) (body : Op Workshop Unit) :
    Op Workshop Unit := do
  let opener ← h.opener
  let start ← openBlock id h.condition opener
  (body.onFault (cutBack id start)).ensure (dropCondition id)
  change id (·.append [h.closer])

/-! ## Splices -/

/-- Makes a builder ready to be spliced: an empty stream, the open conditions of
the taker, and its strictness beside the own one. -/
def lend (taker : Builder) (b : Builder) : Builder :=
  { b.clear with openConditions := taker.openConditions, strict := b.strict || taker.strict }

/-- Gives a builder its own conditions and strictness back. -/
def giveBack (before : Builder) (b : Builder) : Builder :=
  { b with openConditions := before.openConditions, strict := before.strict }

/-- Takes the commands of another builder over, unless there would be two queries. -/
def takeOver (id other : BuilderId) : Op Workshop Unit := do
  let b ← read other fun b => b
  let queries ← read id fun a => a.stream.queries + b.stream.queries
  if 1 < queries then .stop (.splicedQuery b.kind.name)
  else
    change id (·.append b.stream)
    let length ← read other (·.stream.length)
    logged (Log.say .builder .debug s!"Added {length} commands from {b.kind.name}")

/-- Runs another builder and takes its commands over. -/
def splice (build : Building) (id other : BuilderId) (context : Value) : Op Workshop Unit := do
  change other Builder.clear
  let before ← read other fun b => b
  let taker ← read id fun b => b
  change other (lend taker)
  (build other context).ensure (changeBuilder other (giveBack before))
  takeOver id other

end Workshop

/-! ## Steps -/

open Workshop (read change call find)

/-- Notes how an attempt ended. -/
def Workshop.note (r : Except Fault Unit) : Op Workshop Unit :=
  .update fun w => { w with caught := w.caught ++ [match r with
    | .ok _ => none
    | .error f => some f] }

mutual

/-- Runs a step on a builder in a context. -/
def Step.run (build : Building) (id : BuilderId) (context : Value) : Step → Op Workshop Reply
  | .call c => do call id (← c.resolve context)
  | .block head body => do
    let h ← head.resolve context
    Workshop.block id h (Program.run build id context body)
    return .nothing
  | .splice target c => do
    let other ← find target
    Workshop.splice build id other (← c.resolve context)
    return .nothing
  | .build c => do
    build id (← c.resolve context)
    return .nothing
  | .raise f => .stop f
  | .attempt body => do
    Workshop.note (← (Program.run build id context body).attempt)
    return .nothing
  | .on target step => do
    let other ← find target
    Step.run build other context step
  | .inspect target => do
    let other ← find target
    read other Builder.view
termination_by structural s => s

/-- Runs steps in order. -/
def Program.run (build : Building) (id : BuilderId) (context : Value) :
    List Step → Op Workshop Unit
  | [] => return ()
  | s :: ss => do
    let _ ← Step.run build id context s
    Program.run build id context ss
termination_by structural ss => ss

end

/-! ## Building -/

/-- Adds the query of a builder. -/
def Workshop.addOwnQuery (id : BuilderId) : Op Workshop Unit := do
  let b ← read id fun b => b
  let b ← b.addOwnQuery
  change id fun _ => b

/-- Builds a builder, where builders may build inside one another to a depth. -/
def Builder.build : (depth : Nat) → Building
  | 0, _, _ => .stop .tooDeep
  | depth + 1, id, context => do
    let bench := (← .state).bench id
    match bench.builder.kind with
    | .plain => .stop (.noBuild bench.builder.kind.name)
    | .setup => change id fun b => b.append b.setupCommands
    | .teardown => change id (·.append Builder.teardownCommands)
    | .query => Workshop.addOwnQuery id
    | .script => Program.run (Builder.build depth) id context bench.program
    | .scriptQuery => do
      Program.run (Builder.build depth) id context bench.program
      Workshop.addOwnQuery id

/-- How deep builders may build inside one another. -/
def Builder.depthLimit : Nat := 200

/-- Builds a builder in a context. -/
def Workshop.build : Building := Builder.build Builder.depthLimit

end Cockpit
