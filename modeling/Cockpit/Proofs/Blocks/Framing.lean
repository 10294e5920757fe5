import Cockpit.Proofs.Blocks.Nesting
import Cockpit.Proofs.Blocks.Orderly
import Cockpit.Proofs.Builder.Calls
import Mathlib.Logic.Function.Basic

/-!
# The frame of a builder

The *frame* of a builder says what its stream is in the middle of: the conditions
that it was lent for a splice, and the blocks of its own that are open.  A builder
fits its frame when its stream reads up to those blocks and opens none with a lent
condition, and when its open conditions are the lent ones and those of the blocks.

This module says how each change of a builder moves it from frame to frame.  A
body of a block runs one block further in.  A splice runs the other builder in a
frame with nothing open, and its stream then fits into any frame that has the lent
conditions open (`Builder.Framed.takeOver`).
-/

namespace Cockpit

/-- What the stream of a builder is in the middle of. -/
structure Frame where
  /-- The conditions that were open when the builder was spliced. -/
  held : List Value := []
  /-- Its own open blocks, innermost first. -/
  stack : List Opening := []

namespace Frame

/-- All open conditions, outermost first. -/
def conditions (f : Frame) : List Value := f.held ++ (conditionsOf f.stack).reverse

/-- The frame one block further in. -/
def enter (o : Opening) (f : Frame) : Frame := { f with stack := o :: f.stack }

theorem conditions_enter (o : Opening) (f : Frame) :
    (f.enter o).conditions = f.conditions ++ [o.condition] := by
  simp [conditions, enter]

end Frame

/-! ## Heads of blocks -/

namespace BlockHead

/-- The block of a head. -/
def opening (h : BlockHead Value) : Opening := ⟨h.kind, h.condition⟩

theorem opens?_opener {h : BlockHead Value} {c : Command} (hc : h.opener = .ok c) :
    c.opens? = some h.opening := by
  rcases opener_cases hc with ⟨hk, xs, rfl⟩ | ⟨hk, t, xs, -, rfl⟩
  · rw [opening, hk]
    rfl
  · rw [opening, hk]
    rfl

theorem opens?_closer (h : BlockHead Value) : h.closer.opens? = none := by
  obtain ⟨kind, condition, expected, args, timeout⟩ := h
  cases kind <;> rfl

theorem closes?_closer (h : BlockHead Value) : h.closer.closes? = some h.opening := by
  obtain ⟨kind, condition, expected, args, timeout⟩ := h
  cases kind <;> rfl

end BlockHead

/-- A text that is the same as no open condition is none of them. -/
theorem not_mem_of_any_same {s : String} {vs : List Value}
    (h : vs.any (·.same (.text s)) = false) : Value.text s ∉ vs := by
  intro hm
  have ht : vs.any (·.same (.text s)) = true :=
    List.any_eq_true.mpr ⟨.text s, hm, by simp [Value.same]⟩
  rw [h] at ht
  cases ht

/-! ## Builders in frames -/

/-- Whether a builder fits a frame. -/
structure Builder.Framed (b : Builder) (f : Frame) : Prop where
  scans : b.stream.scan [] = some f.stack
  avoids : b.stream.Avoids f.held
  conditions : b.openConditions = f.conditions

namespace Builder

variable {a b : Builder} {f : Frame}

theorem framed_new (h : b.stream = []) (hc : b.openConditions = []) : b.Framed {} where
  scans := by rw [h]; rfl
  avoids := by rw [h]; exact Stream.avoids_nil _
  conditions := hc

theorem Framed.wellNested (h : b.Framed {}) : b.stream.WellNested := h.scans

/-- Commands that open and close nothing fit in anywhere. -/
theorem Framed.append_plain (h : b.Framed f) {cs : Stream} (hcs : cs.IsPlain) :
    (b.append cs).Framed f where
  scans := by
    rw [append, Stream.scan_append, h.scans]
    exact Stream.scan_plain hcs f.stack
  avoids := h.avoids.append (Stream.avoids_plain hcs _)
  conditions := h.conditions

/-- Only the stream and the open conditions matter. -/
theorem Framed.of_parts (h : a.Framed f) (hs : b.stream = a.stream)
    (hc : b.openConditions = a.openConditions) : b.Framed f := by
  constructor
  · rw [hs]
    exact h.scans
  · rw [hs]
    exact h.avoids
  · rw [hc]
    exact h.conditions

theorem Framed.setStrict (h : b.Framed f) (s : Bool) : ({ b with strict := s }).Framed f :=
  h.of_parts rfl rfl

theorem Framed.clear (h : b.Framed {}) : b.clear.Framed {} := framed_new rfl h.conditions

/-! ### Blocks -/

/-- The builder after a block was opened fits one block further in. -/
theorem Framed.openBlock (h : b.Framed f) {o : Opening} {c : Command}
    (ho : c.opens? = some o) (hn : o.condition ∉ b.openConditions) :
    ({ b.append [c] with openConditions := b.openConditions ++ [o.condition] }).Framed
      (f.enter o) := by
  rw [h.conditions] at hn ⊢
  have hh : o.condition ∉ f.held := fun hm => hn (List.mem_append_left _ hm)
  have hs : o.condition ∉ conditionsOf f.stack :=
    fun hm => hn (List.mem_append_right _ (List.mem_reverse.mpr hm))
  constructor
  · change (b.stream ++ [c]).scan [] = _
    rw [Stream.scan_append, h.scans, Option.bind_some, Stream.scan_cons,
      Stream.scanCommand_opens ho, Stream.push_of_not_mem hs]
    rfl
  · refine h.avoids.append fun d hd p hp => ?_
    cases List.mem_singleton.mp hd
    cases ho.symm.trans hp
    exact hh
  · exact (f.conditions_enter o).symm

/-- The builder after the body of a block, without the condition of the block. -/
def leave (b : Builder) : Builder := { b with openConditions := b.openConditions.dropLast }

/-- The builder with its stream cut back. -/
def cut (n : Nat) (b : Builder) : Builder := { b with stream := b.stream.take n }

theorem Framed.conditions_leave {o : Opening} (h : a.Framed (f.enter o)) :
    a.leave.openConditions = f.conditions := by
  rw [leave, h.conditions, f.conditions_enter, List.dropLast_concat]

/-- Closing a block leads back out of it. -/
theorem Framed.closeBlock {o : Opening} {c : Command} (h : a.Framed (f.enter o))
    (hn : c.opens? = none) (hc : c.closes? = some o) : (a.leave.append [c]).Framed f where
  scans := by
    change (a.stream ++ [c]).scan [] = _
    rw [Stream.scan_append, h.scans, Option.bind_some, Stream.scan_cons,
      Stream.scanCommand_closes hn hc]
    exact congrArg (·.bind fun t => Stream.scan t []) (Stream.pop_self o f.stack)
  avoids := by
    refine Stream.Avoids.append h.avoids fun d hd p hp => ?_
    cases List.mem_singleton.mp hd
    rw [hn] at hp
    cases hp
  conditions := h.conditions_leave

/-- Cutting the stream back to before the block leads back out of it, too. -/
theorem Framed.cutBlock {o : Opening} (h : b.Framed f) (ha : a.Framed (f.enter o))
    (hp : b.stream <+: a.stream) : (a.cut b.stream.length).leave.Framed f := by
  have ht : a.stream.take b.stream.length = b.stream := (List.prefix_iff_eq_take.mp hp).symm
  constructor
  · change Stream.scan [] (a.stream.take b.stream.length) = _
    rw [ht]
    exact h.scans
  · change Stream.Avoids _ (a.stream.take b.stream.length)
    rw [ht]
    exact h.avoids
  · exact ha.conditions_leave

/-! ### Splices -/

/-- A builder that is lent to another one has nothing open of its own. -/
theorem framed_lend (taker : Builder) (b : Builder) :
    (Workshop.lend taker b).Framed { held := taker.openConditions } where
  scans := rfl
  avoids := Stream.avoids_nil _
  conditions := (List.append_nil _).symm

/-- A builder that gets its own conditions back has nothing open at all. -/
theorem Framed.giveBack {held : List Value} (h : b.Framed { held }) (ha : a.Framed {}) :
    (Workshop.giveBack a b).Framed {} where
  scans := h.scans
  avoids := h.avoids.mono (fun _ hv => absurd hv List.not_mem_nil)
  conditions := ha.conditions

/-- A stream with nothing left open fits into a frame whose conditions it avoids. -/
theorem Framed.takeOver (h : a.Framed f) {s : Stream} (hs : s.WellNested)
    (hv : s.Avoids f.conditions) : (a.append s).Framed f where
  scans := by
    have hi := Stream.scan_inside hs f.stack
      (hv.mono fun v hm => List.mem_append_right _ (List.mem_reverse.mpr hm))
    rw [append, Stream.scan_append, h.scans]
    exact hi
  avoids := h.avoids.append (hv.mono fun v hm => List.mem_append_left _ hm)
  conditions := h.conditions

end Builder

end Cockpit
