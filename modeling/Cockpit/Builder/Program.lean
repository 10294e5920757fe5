import Cockpit.Builder.Basic

/-!
# Builder programs

An authored program is a list of steps.  A step is a call on the current
builder, a block around more steps, the splicing of another builder, or a way to
raise and catch faults.  Blocks nest, and a target may hold a whole builder with
a program of its own.

Steps hold programs as data.  Running them is the matter of `Builder.Run`.
-/

namespace Cockpit

/-- Which kind of block a program opens. -/
inductive BlockKind where
  | onceIf
  | loopWhile
  deriving DecidableEq, Repr

/-- The head of a block, with fields of a type. -/
structure BlockHead (α : Type) where
  kind : BlockKind
  condition : α
  expected : α
  args : α
  /-- The most rounds of a loop. -/
  timeout : α
  deriving DecidableEq

namespace BlockHead

/-- The head with its operands read from a context. -/
def resolve (context : Value) (h : BlockHead Operand) : Except Fault (BlockHead Value) := do
  return {
    kind := h.kind
    condition := ← h.condition.resolve context
    expected := ← h.expected.resolve context
    args := ← h.args.resolve context
    timeout := ← h.timeout.resolve context }

/-- The command that opens the block. -/
def opener (h : BlockHead Value) : Except Fault Command :=
  match h.kind with
  | .onceIf => do return .openIf h.condition h.expected (← h.args.arguments)
  | .loopWhile => do
    let bound ← h.timeout.clampWait
    return .openWhile h.condition h.expected bound (← h.args.arguments)

/-- The command that closes the block. -/
def closer (h : BlockHead Value) : Command :=
  match h.kind with
  | .onceIf => .closeIf h.condition
  | .loopWhile => .closeWhile h.condition

end BlockHead

mutual

/-- One step of a program. -/
inductive Step where
  /-- A call on the current builder. -/
  | call (c : Call Operand)
  /-- A block around more steps. -/
  | block (head : BlockHead Operand) (body : List Step)
  /-- Run another builder with a context and take its commands over. -/
  | splice (target : Target) (context : Operand)
  /-- Build the current builder itself. -/
  | build (context : Operand)
  /-- Fail. -/
  | raise (fault : Fault)
  /-- Run steps, note how they end, and go on. -/
  | attempt (body : List Step)
  /-- Run a step on another builder. -/
  | on (target : Target) (step : Step)
  /-- Look at another builder. -/
  | inspect (target : Target)

/-- A builder that a step refers to. -/
inductive Target where
  | named (name : String)
  /-- A new builder, with the airframe at hand or without one. -/
  | fresh (kind : BuilderKind) (equipped strict : Bool) (fn args : Value) (program : List Step)

end

instance : Inhabited Step := ⟨.attempt []⟩

instance : Inhabited Target := ⟨.named ""⟩

/-- A list of steps. -/
abbrev Program := List Step

end Cockpit
