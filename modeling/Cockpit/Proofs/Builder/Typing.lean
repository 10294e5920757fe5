import Cockpit.Proofs.Builder.Origins
import Cockpit.Proofs.Wire.Typed

/-!
# Typed requests give typed commands

`Request.Typed` says that what is asked of a builder has the types that its operations are
declared with: integers for waits and delays, texts for names of functions, marks, messages and
conditions.  An airframe is typed if the controls of its actions are.

What a typed request issues is typed (`Request.Typed.keeps`).  So if all requests of a run are
typed, it makes streams of typed commands from such streams, however it ends
(`Program.run_typed`), and what it leaves can be sent.
-/

namespace Cockpit

open Op

/-! ## What is typed -/

/-- Whether an action sets a control by its number to numbers. -/
structure Action.Typed (a : Action) : Prop where
  code : a.code.IsInteger
  delay : a.delay.IsInteger
  down : a.down.IsNumber
  up : a.up.IsNumber

/-- Whether a device has a number and all its actions are typed. -/
structure Device.Typed (d : Device) : Prop where
  id : d.id.IsInteger
  actions : ∀ a ∈ d.actions, a.Typed

def Airframe.Typed (a : Airframe) : Prop := ∀ d ∈ a.devices, d.Typed

/-- Whether a device is typed, where the author holds it. -/
def DeviceSource.Typed {α : Type} : DeviceSource α → Prop
  | .named _ => True
  | .held d => d.Typed

/-- Whether the values of a call have their declared types. -/
def Call.ValuesTyped : Call Value → Prop
  | .action _ _ w => w.IsInteger
  | .customAction _ _ down up delay w =>
    (down = .null ∨ down.IsNumber) ∧ (up = .null ∨ up.IsNumber) ∧ delay.IsInteger ∧ w.IsInteger
  | .actions _ _ _ w => w.IsInteger
  | .repeatAction _ _ _ w => w.IsInteger
  | .wait delay => delay.IsInteger
  | .marker mark => mark.isText = true
  | .abort message => message.isText = true
  | .exec fn _ w => fn.isText = true ∧ w.IsInteger
  | .query fn _ => fn.isText = true
  | .typeText _ _ w => w.IsInteger
  | .typeCoordinate _ _ w => w.IsInteger
  | .typeNumber _ _ _ _ _ w => w.IsInteger
  | _ => True

/-- Whether what a call carries is typed: its values and its device. -/
structure Call.Typed (c : Call Value) : Prop where
  values : c.ValuesTyped
  source : ∀ v, c.source? = some v → v.Typed

/-- Whether the values of the head of a block have their declared types. -/
structure BlockHead.Typed (h : BlockHead Value) : Prop where
  condition : h.condition.isText = true
  expected : ∃ b, h.expected = .bool b
  timeout : h.kind = .loopWhile → h.timeout.IsInteger

def Request.Typed (r : Request) : Prop :=
  match r.asked with
  | .inl c => c.Typed
  | .inr h => h.Typed

/-- Whether all commands of a stream are typed. -/
def Stream.Typed (s : Stream) : Prop := ∀ c ∈ s, c.Typed Value.IsNumber

/-- Whether the stream and the airframe of a builder are typed. -/
structure Builder.Typed (b : Builder) : Prop where
  stream : Stream.Typed b.stream
  airframe : ∀ a, b.airframe = some a → a.Typed

/-- Whether all builders and the airframe of a workshop are typed. -/
structure Workshop.Typed (w : Workshop) : Prop where
  builders : ∀ i, (w.builder i).Typed
  airframe : ∀ a, w.airframe = some a → a.Typed

/-! ## Values -/

theorem Value.isText_eq {v : Value} (h : v.isText = true) : ∃ s, v = .text s := by
  cases v with
  | text s => exact ⟨s, rfl⟩
  | _ => cases h

theorem Value.isInteger_zero : (Value.int 0).IsInteger := by decide

theorem Value.isInteger_one : (Value.int 1).IsInteger := by decide

/-- A wait that was clamped is an integer still. -/
theorem Value.IsInteger.clampWait {v u : Value} (h : v.IsInteger) (hu : v.clampWait = .ok u) :
    u.IsInteger := by
  obtain ⟨n, rfl, hn⟩ := h.exists_int
  rw [Value.clampWait, isPositive_int] at hu
  by_cases hpos : 0 < n
  · simp only [hpos, decide_true] at hu
    cases hu
    exact hn
  · simp only [hpos, decide_false] at hu
    cases hu
    exact isInteger_zero

theorem Value.IsInteger.max_zero {n : Int} (h : (Value.int n).IsInteger) :
    (Value.int (max 0 n)).IsInteger := by
  rcases Int.le_total 0 n with hn | hn
  · rwa [Int.max_eq_right hn]
  · rw [Int.max_eq_left hn]
    exact isInteger_zero

/-! ## Presses -/

/-- Whether a press is a typed command. -/
abbrev Press.Typed (p : Press) : Prop := (Command.action p).Typed Value.IsNumber

namespace Device

variable {d : Device} {a : Action} {wait : Value}

theorem Typed.press (hd : d.Typed) (ha : a.Typed) (hw : wait.IsInteger) {p : Press}
    (hp : d.press a wait = .ok p) : p.Typed := by
  obtain ⟨u, hu, hp⟩ := exists_of_bind_ok hp
  cases hp
  exact .action hd.id ha.code ha.down ha.up ha.delay (hw.clampWait hu)

end Device

/-- A typed action with other parameters that are typed. -/
theorem Action.Typed.adapt {a : Action} (ha : a.Typed) {delay down up : Value}
    (hdelay : delay.IsInteger) (hdown : down = .null ∨ down.IsNumber)
    (hup : up = .null ∨ up.IsNumber) : (a.adapt delay down up).Typed := by
  refine ⟨ha.code, ?_, ?_, ?_⟩
  · show Value.IsInteger (if _ then _ else _)
    split
    · exact hdelay
    · exact ha.delay
  · show Value.IsNumber (if _ then _ else _)
    split
    · exact ha.up
    · exact hdown.resolve_left ‹_›
  · show Value.IsNumber (if _ then _ else _)
    split
    · exact ha.down
    · exact hup.resolve_left ‹_›

/-- A typed press with an integer as another wait after it. -/
theorem Press.Typed.thenWait {p q : Press} (hp : p.Typed) {wait : Value} (hw : wait.IsInteger)
    (hq : p.thenWait wait = .ok q) : q.Typed := by
  obtain ⟨n, rfl, hn⟩ := hw.exists_int
  cases hq
  cases hp with
  | action device code down up delay _ =>
      exact .action device code down up delay (Value.IsInteger.max_zero hn)

/-! ## Requests -/

/-- The wait of a typed call is an integer. -/
theorem Call.ValuesTyped.wait {c : Call Value} (hc : c.ValuesTyped) {w : Value}
    (hw : c.wait? = some w) : w.IsInteger := by
  cases c <;> cases hw
  case exec => exact hc.2
  case customAction => exact hc.2.2.2
  all_goals exact hc

namespace Builder

variable {b : Builder} {c : Call Value} {v : DeviceSource Value} {d : Device} {wait : Value}

/-- The device of a typed source is typed if those of the airframe are. -/
theorem device_typed (hb : ∀ a, b.airframe = some a → a.Typed) (hv : v.Typed)
    (hd : b.device v = .ok d) : d.Typed := by
  rcases mem_of_device hd with rfl | ⟨r, hr, hmem⟩
  · exact hv
  · exact hb r hr d hmem

theorem Presses.typed {p : Press} (hp : b.Presses c wait p)
    (hb : ∀ a, b.airframe = some a → a.Typed) (hc : c.Typed) (hw : wait.IsInteger) :
    p.Typed := by
  obtain ⟨v, d, a, hv, hd, ha, hpress⟩ := hp
  have hdevice := device_typed hb (hc.source v hv) hd
  exact hdevice.press (hdevice.actions a ha) hw hpress

/-- What a typed call issues is typed. -/
theorem Issues.typed {x : Command} (h : b.Issues c x)
    (hb : ∀ a, b.airframe = some a → a.Typed) (hc : c.Typed) : x.Typed Value.IsNumber := by
  have hvalues := hc.values
  cases h with
  | action hp => exact hp.typed hb hc hvalues
  | customAction hd ha hp =>
      obtain ⟨hdown, hup, hdelay, hw⟩ := hvalues
      have hdevice := device_typed hb (hc.source _ rfl) hd
      exact hdevice.press ((hdevice.actions _ ha).adapt hdelay hdown hup) hw hp
  | listed hp => exact hp.typed hb hc Value.isInteger_zero
  | last hw hp hq => exact (hp.typed hb hc Value.isInteger_zero).thenWait (hvalues.wait hw) hq
  | wait hw _ => exact .wait (hvalues.wait hw)
  | marker m =>
      obtain ⟨s, rfl⟩ := Value.isText_eq hvalues
      exact .marker s
  | abort m =>
      obtain ⟨s, rfl⟩ := Value.isText_eq hvalues
      exact .abort s
  | errorAbort m => exact .abort _
  | exec hu xs =>
      obtain ⟨hfn, hw⟩ := hvalues
      obtain ⟨s, rfl⟩ := Value.isText_eq hfn
      exact .exec s xs (hw.clampWait hu)
  | query fn args xs =>
      obtain ⟨s, rfl⟩ := Value.isText_eq hvalues
      exact .query s xs

end Builder

/-- The commands around a typed block are typed. -/
theorem BlockHead.Issues.typed {h : BlockHead Value} {x : Command} (hx : h.Issues x)
    (hh : h.Typed) : x.Typed Value.IsNumber := by
  obtain ⟨kind, condition, expected, args, timeout⟩ := h
  obtain ⟨hcondition, ⟨b, hb⟩, htimeout⟩ := hh
  obtain ⟨s, rfl⟩ := Value.isText_eq hcondition
  cases hb
  cases hx with
  | openIf _ xs => exact .openIf s b xs
  | openWhile hk hu xs => exact .openWhile s b ((htimeout hk).clampWait hu) xs
  | closeIf => exact .closeIf s
  | closeWhile => exact .closeWhile s

/-- What a typed request issues is typed. -/
theorem Request.Typed.keeps {r : Request} (h : r.Typed) :
    r.Keeps (Command.Typed Value.IsNumber) Airframe.Typed := by
  intro hb x hx
  unfold Request.Typed at h
  unfold Request.Issues at hx
  cases ha : r.asked with
  | inl c =>
      rw [ha] at h hx
      exact Builder.Issues.typed hx hb h
  | inr head =>
      rw [ha] at h hx
      exact BlockHead.Issues.typed hx h

theorem Command.FramesUpload.typed {x : Command} (h : x.FramesUpload) :
    x.Typed Value.IsNumber := by
  rcases h.exec_or_marker with ⟨fn, args, rfl⟩ | ⟨mark, rfl⟩
  · exact .exec fn args Value.isInteger_zero
  · exact .marker mark

/-! ## Runs -/

theorem Workshop.typed_iff_holds {w : Workshop} :
    w.Typed ↔ w.Holds (Command.Typed Value.IsNumber) Airframe.Typed :=
  ⟨fun h => ⟨fun i => ⟨(h.builders i).stream, (h.builders i).airframe⟩, h.airframe⟩,
    fun h => ⟨fun i => ⟨(h.builders i).stream, (h.builders i).airframe⟩, h.airframe⟩⟩

theorem Workshop.Typed.withBench {w : Workshop} (h : w.Typed) {n : Bench}
    (hn : n.builder.Typed) : (w.withBench n).Typed :=
  typed_iff_holds.mpr ((typed_iff_holds.mp h).withBench ⟨hn.stream, hn.airframe⟩)

/-- A run whose requests are typed leaves typed streams, however it ends. -/
theorem Program.run_typed (depth : Nat) {ss : Program} {id : BuilderId} {context : Value}
    {w : Workshop} (hw : w.Typed)
    (hr : ∀ r ∈ Program.requests (Builder.build depth) (Builder.requests depth) id context ss w,
      r.Typed) : ((Program.run (Builder.build depth) id context ss).run w).2.Typed := by
  have hbuild := Builder.build_holds (A := Airframe.Typed) (fun _ hx => hx.typed) depth
  exact Workshop.typed_iff_holds.mpr
    (Program.run_holds hbuild ss (Workshop.typed_iff_holds.mp hw) fun r hm => (hr r hm).keeps)

end Cockpit
