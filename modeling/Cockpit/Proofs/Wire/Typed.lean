import Cockpit.Proofs.Json.RoundTrip
import Cockpit.Proofs.Wire.Framed
import Mathlib.Algebra.Group.Nat.Defs

/-!
# Streams of typed commands

Fields of commands are untyped.  `Command.Typed` says that the fields of a command
have the types that they are declared with: integers that JSON can carry, texts, a
truth value, and numbers where a control is set.

The text of a stream of such commands denotes the list of their objects
(`Stream.framed_denotes`).
-/

namespace Cockpit

/-! ## Types of fields -/

namespace Double

/-- Whether a number is one of the format and, unless it is whole, survives being
written and read. -/
def IsProper : Double → Prop
  | .finite s u => u < limit ∧ (u % one ≠ 0 → (Double.finite s u).Survives)
  | _ => True

end Double

namespace Value

/-- Whether a value is an integer that is not too long. -/
def IsInteger : Value → Prop
  | .int n => Number.digitCount n.natAbs ≤ Number.digitLimit
  | _ => False

instance : (v : Value) → Decidable v.IsInteger
  | .int n => inferInstanceAs (Decidable (Number.digitCount n.natAbs ≤ Number.digitLimit))
  | .null | .bool _ | .float _ | .text _ | .list _ | .object _ => isFalse id

/-- Whether a value is an integer or a proper binary64 number. -/
def IsNumber : Value → Prop
  | .int n => Number.digitCount n.natAbs ≤ Number.digitLimit
  | .float x => x.IsProper
  | _ => False

end Value

/-- Whether the fields of a command have their declared types, where controls are set
to some kind of numbers. -/
inductive Command.Typed (number : Value → Prop) : Command → Prop where
  | action {p : Press} (device : p.device.IsInteger) (code : p.code.IsInteger)
    (down : number p.down) (up : number p.up) (delay : p.delay.IsInteger)
    (postWait : p.postWait.IsInteger) : Typed number (.action p)
  | wait {delay : Value} (h : delay.IsInteger) : Typed number (.wait delay)
  | marker (mark : String) : Typed number (.marker (.text mark))
  | query (fn : String) (args : List String) : Typed number (.query (.text fn) args)
  | exec (fn : String) (args : List String) {postWait : Value} (h : postWait.IsInteger) :
    Typed number (.exec (.text fn) args postWait)
  | abort (message : String) : Typed number (.abort (.text message))
  | openIf (condition : String) (expected : Bool) (args : List String) :
    Typed number (.openIf (.text condition) (.bool expected) args)
  | closeIf (condition : String) : Typed number (.closeIf (.text condition))
  | openWhile (condition : String) (expected : Bool) {timeout : Value} (h : timeout.IsInteger)
    (args : List String) : Typed number (.openWhile (.text condition) (.bool expected) timeout args)
  | closeWhile (condition : String) : Typed number (.closeWhile (.text condition))

/-! ## Fields on the wire -/

/-- Integers are compared as such. -/
theorem Scalar.lt_int (m n : Int) : (Scalar.int m).lt (.int n) = decide (m < n) := by
  change (some (compare m n) == some .lt) = decide (m < n)
  by_cases h : m < n
  · simp [h, compare, compareOfLessAndEq]
  · by_cases he : m = n <;> simp [h, he, compare, compareOfLessAndEq]

namespace Value

theorem IsInteger.exists_int {v : Value} (h : v.IsInteger) :
    ∃ n, v = .int n ∧ Number.digitCount n.natAbs ≤ Number.digitLimit := by
  cases v with
  | int n => exact ⟨n, rfl, h⟩
  | _ => exact h.elim

theorem toInt_int (n : Int) : (Value.int n).toInt = .ok n := rfl

theorem isPositive_int (n : Int) : (Value.int n).isPositive = .ok (decide (0 < n)) :=
  congrArg Except.ok (Scalar.lt_int 0 n)

theorem isBelow_int (m n : Int) : (Value.int m).isBelow (.int n) = .ok (decide (m < n)) :=
  congrArg Except.ok (Scalar.lt_int m n)

end Value

theorem digitCount_le_of_lt {m k l : Nat} (h : m < 2 ^ k) (hk : k ≤ l) (hl : 0 < l) :
    Number.digitCount m ≤ l := by
  refine (Nat.length_toDigits_le_iff (by decide) hl).mpr ?_
  calc m < 2 ^ k := h
    _ ≤ 10 ^ k := Nat.pow_le_pow_left (by decide) k
    _ ≤ 10 ^ l := Nat.pow_le_pow_right (by decide) hk

/-- The whole numbers of the format are not too long. -/
theorem Double.digitCount_le {u : Nat} (h : u < limit) :
    Number.digitCount (u / one) ≤ Number.digitLimit := by
  have div_lt {a b : Nat} (h : u < Nat.pow 2 (a + b)) : u / Nat.pow 2 a < 2 ^ b := by
    have hsplit : u < 2 ^ a * 2 ^ b := Nat.pow_add 2 a b ▸ h
    exact Nat.div_lt_of_lt_mul hsplit
  unfold limit at h
  unfold one
  exact digitCount_le_of_lt (div_lt h) (by decide) (by decide)

theorem Double.natAbs_signedUnits (s : Bool) (u : Nat) : (signedUnits s u).natAbs = u := by
  cases s <;> simp [signedUnits]

/-- A number that equals an integer is sent as one, and the integer is not too long. -/
theorem Value.IsNumber.fits_collapse {v : Value} (h : v.IsNumber) (d : Nat) :
    v.collapse.Fits d := by
  cases v with
  | int n => exact .int d h
  | float x =>
      cases x with
      | nan => exact .float d Double.survives_nan
      | inf s => exact .float d (Double.survives_inf s)
      | finite s u =>
          obtain ⟨hu, hx⟩ := h
          by_cases hm : u % Double.one = 0
          · have hc : (Value.float (.finite s u)).collapse =
                .int (Double.signedUnits s (u / Double.one)) := by
              simp only [collapse, Double.toInt?, if_pos hm]
            rw [hc]
            refine .int d ?_
            rw [Double.natAbs_signedUnits]
            exact Double.digitCount_le hu
          · have hc : (Value.float (.finite s u)).collapse = .float (.finite s u) := by
              simp only [collapse, Double.toInt?, if_neg hm]
            rw [hc]
            exact .float d (hx hm)
  | _ => exact h.elim

/-! ## Payloads of typed commands -/

theorem Value.isNonzero_int (n : Int) : (Value.int n).isNonzero = decide (n ≠ 0) := by
  change (!(n == 0)) = decide (n ≠ 0)
  by_cases h : n = 0 <;> simp [h]

/-- An object whose entries are some of those that fit. -/
theorem Value.fits_object {es full : Entries} (hs : es.Sublist full)
    (hk : (full.map Prod.fst).Nodup) {d : Nat} (h : ∀ e ∈ full, e.2.Fits d) :
    (Value.object es).Fits (d + 1) :=
  .object (hk.sublist (hs.map Prod.fst)) fun e he => h e (hs.subset he)

theorem ite_sublist {α : Type} (c : Prop) [Decidable c] (xs : List α) :
    (if c then xs else []).Sublist xs := by
  split
  · exact List.Sublist.refl xs
  · exact List.nil_sublist xs

namespace Command

theorem sublist_argumentEntry (args : List String) :
    (argumentEntry args).Sublist [("prm", .list (args.map .text))] := by
  rw [argumentEntry]
  split
  · exact List.nil_sublist _
  · exact List.Sublist.refl _

theorem fits_arguments (args : List String) (d : Nat) :
    (Value.list (args.map .text)).Fits (d + 1) := by
  refine .list fun x hx => ?_
  obtain ⟨a, -, rfl⟩ := List.mem_map.mp hx
  exact .text d a

theorem pressPayload_eq {p : Press} {device code delay : Int} (hd : p.device = .int device)
    (hc : p.code = .int code) (ht : p.delay = .int delay) :
    pressPayload p = .ok ([("dev", .int device), ("code", .int code), ("dn", p.down.collapse)]
      ++ (if p.up.isNonzero then [("up", p.up.collapse)] else [])
      ++ (if delay ≠ 0 then [("dt", .int delay)] else [])) := by
  rw [pressPayload, hd, hc, ht, Value.toInt_int, Value.toInt_int, Value.isNonzero_int]
  by_cases h : delay = 0
  · subst h
    rfl
  · simp only [ne_eq, h, not_false_eq_true, decide_true, if_true]
    rfl

theorem timeoutEntry_int (n : Int) :
    timeoutEntry (.int n) = .ok (if n ≠ 0 then [("tout", .int n)] else []) := by
  by_cases h : n = 0
  · subst h
    rfl
  · have hs : (Value.int n).isSet = true := by simpa [Value.isSet] using h
    rw [timeoutEntry, if_pos hs, if_pos h]
    rfl

theorem fits_text (key t : String) {d : Nat} : (Value.object [(key, .text t)]).Fits (d + 2) :=
  .object (by simp) fun e he => by
    cases List.mem_singleton.mp he
    exact .text _ t

theorem fits_call (fn : String) (args : List String) {d : Nat} :
    (Value.object (("fn", .text fn) :: argumentEntry args)).Fits (d + 2) := by
  have hs := (List.Sublist.refl [("fn", Value.text fn)]).append (sublist_argumentEntry args)
  refine Value.fits_object hs (by simp) fun e he => ?_
  simp only [List.cons_append, List.nil_append, List.mem_cons, List.not_mem_nil, or_false] at he
  rcases he with rfl | rfl
  · exact .text _ fn
  · exact fits_arguments args _

/-- The payload of a typed command is an object that fits. -/
theorem Typed.exists_payload {c : Command} (h : c.Typed Value.IsNumber) :
    ∃ es, c.payload = .ok es ∧ ∀ d, (Value.object es).Fits (d + 2) := by
  cases h with
  | @action p device code down up delay _ =>
      obtain ⟨m, hm, hm'⟩ := device.exists_int
      obtain ⟨n, hn, hn'⟩ := code.exists_int
      obtain ⟨t, ht, ht'⟩ := delay.exists_int
      refine ⟨_, pressPayload_eq hm hn ht, fun d => ?_⟩
      have hs := ((List.Sublist.refl [("dev", Value.int m), ("code", .int n), ("dn", p.down.collapse)]).append
        (ite_sublist (p.up.isNonzero = true) [("up", p.up.collapse)])).append
        (ite_sublist (t ≠ 0) [("dt", .int t)])
      refine Value.fits_object hs (by simp) fun e he => ?_
      simp only [List.cons_append, List.nil_append, List.mem_cons, List.not_mem_nil, or_false] at he
      rcases he with rfl | rfl | rfl | rfl | rfl
      · exact .int _ hm'
      · exact .int _ hn'
      · exact down.fits_collapse _
      · exact up.fits_collapse _
      · exact .int _ ht'
  | wait h =>
      obtain ⟨n, rfl, hn⟩ := h.exists_int
      refine ⟨[("dt", .int n)], rfl, fun d => .object (by simp) fun e he => ?_⟩
      cases List.mem_singleton.mp he
      exact .int _ hn
  | marker mark => exact ⟨_, rfl, fun d => fits_text "mark" mark⟩
  | query fn args => exact ⟨_, rfl, fun d => fits_call fn args⟩
  | exec fn args _ => exact ⟨_, rfl, fun d => fits_call fn args⟩
  | abort message => exact ⟨_, rfl, fun d => fits_text "msg" message⟩
  | openIf c e args =>
      refine ⟨_, rfl, fun d => ?_⟩
      have hs := (List.Sublist.refl [("cond", Value.text c), ("expt", .bool (Value.bool e).isSet)]).append
        (sublist_argumentEntry args)
      refine Value.fits_object hs (by simp) fun e he => ?_
      simp only [List.cons_append, List.nil_append, List.mem_cons, List.not_mem_nil, or_false] at he
      rcases he with rfl | rfl | rfl
      · exact .text _ c
      · exact .bool _ _
      · exact fits_arguments args _
  | closeIf c => exact ⟨_, rfl, fun d => fits_text "cond" c⟩
  | openWhile c e h args =>
      obtain ⟨n, rfl, hn⟩ := h.exists_int
      refine ⟨[("cond", .text c), ("expt", .bool (Value.bool e).isSet)]
        ++ (if n ≠ 0 then [("tout", .int n)] else []) ++ argumentEntry args, ?_, fun d => ?_⟩
      · rw [payload, timeoutEntry_int]
        rfl
      have hs := ((List.Sublist.refl [("cond", Value.text c), ("expt", .bool (Value.bool e).isSet)]).append
        (ite_sublist (n ≠ 0) [("tout", .int n)])).append (sublist_argumentEntry args)
      refine Value.fits_object hs (by simp) fun e he => ?_
      simp only [List.cons_append, List.nil_append, List.mem_cons, List.not_mem_nil, or_false] at he
      rcases he with rfl | rfl | rfl | rfl
      · exact .text _ c
      · exact .bool _ _
      · exact .int _ hn
      · exact fits_arguments args _
  | closeWhile c => exact ⟨_, rfl, fun d => fits_text "cond" c⟩

/-! ## Objects of typed commands -/

/-- The wait after a typed command is an integer. -/
theorem Typed.postWait {number : Value → Prop} {c : Command} (h : c.Typed number) {v : Value}
    (hw : c.postWait? = some v) : v.IsInteger := by
  cases h with
  | action _ _ _ _ _ hp =>
      cases hw
      exact hp
  | exec _ _ hp =>
      cases hw
      exact hp
  | _ => cases hw

/-- The object of a wait. -/
def waitObject (n : Int) : Value :=
  .object [("f", .text "Wait"), ("a", .object [("dt", .int n)])]

/-- The object of a command fits if its payload does. -/
theorem fits_tagged (tag : String) {es : Entries} {d : Nat} (h : (Value.object es).Fits (d + 2)) :
    (Value.object [("f", .text tag), ("a", .object es)]).Fits (d + 3) := by
  refine .object (by simp) fun e he => ?_
  simp only [List.mem_cons, List.not_mem_nil, or_false] at he
  rcases he with rfl | rfl
  · exact .text _ tag
  · exact h

/-- A wait after a command is sent if it is positive. -/
theorem trailer_int {c : Command} {n : Int} (h : c.postWait? = some (.int n)) :
    c.trailer = .ok (if 0 < n then [waitObject n] else []) := by
  rw [trailer, h]
  dsimp only
  rw [Value.isPositive_int]
  by_cases hn : 0 < n
  · simp only [hn, decide_true, if_true]
    rfl
  · simp only [hn, decide_false, if_false]
    rfl

theorem trailer_none {c : Command} (h : c.postWait? = none) : c.trailer = .ok [] := by
  rw [trailer, h]
  rfl

/-- The objects of a typed command fit. -/
theorem Typed.exists_objects {c : Command} (h : c.Typed Value.IsNumber) :
    ∃ os, c.objects = .ok os ∧ ∀ o ∈ os, ∀ d, o.Fits (d + 3) := by
  obtain ⟨es, hp, hes⟩ := h.exists_payload
  obtain ⟨ts, ht, hts⟩ : ∃ ts, c.trailer = .ok ts ∧ ∀ t ∈ ts, ∀ d, t.Fits (d + 3) := by
    cases hw : c.postWait? with
    | none => exact ⟨[], trailer_none hw, nofun⟩
    | some v =>
        obtain ⟨n, rfl, hn⟩ := (h.postWait hw).exists_int
        have hwait : Typed Value.IsNumber (.wait (.int n)) := .wait hn
        obtain ⟨ws, hws, hfits⟩ := hwait.exists_payload
        cases hws
        refine ⟨_, trailer_int hw, fun t ht d => ?_⟩
        split at ht
        · cases List.mem_singleton.mp ht
          exact fits_tagged "Wait" (hfits d)
        · cases ht
  refine ⟨.object [("f", .text c.tag), ("a", .object es)] :: ts, ?_, fun o ho d => ?_⟩
  · rw [objects, toObject, hp, ht]
    rfl
  · rcases List.mem_cons.mp ho with rfl | ho
    · exact fits_tagged c.tag (hes d)
    · exact hts o ho d

end Command

/-! ## Streams -/

theorem Stream.exists_objects {s : Stream} (hs : ∀ c ∈ s, c.Typed Value.IsNumber) :
    ∃ oss, s.mapM Command.objects = .ok oss ∧ ∀ o ∈ oss.flatten, ∀ d, o.Fits (d + 3) := by
  induction s with
  | nil => exact ⟨[], rfl, nofun⟩
  | cons c s ih =>
      obtain ⟨os, ho, hf⟩ := (hs c List.mem_cons_self).exists_objects
      obtain ⟨oss, hoss, hfs⟩ := ih fun d hd => hs d (List.mem_cons_of_mem c hd)
      refine ⟨os :: oss, ?_, fun o hm => ?_⟩
      · rw [List.mapM_cons, ho, hoss]
        rfl
      · rw [List.flatten_cons] at hm
        rcases List.mem_append.mp hm with hm | hm
        · exact hf o hm
        · exact hfs o hm

/-- A typed stream is sent as the list of its objects, and that list is read back. -/
theorem Stream.exists_framed {s : Stream} (hs : ∀ c ∈ s, c.Typed Value.IsNumber) :
    ∃ t oss, s.framed = .ok t ∧ s.mapM Command.objects = .ok oss ∧
      t = Json.write .wire (.list oss.flatten) ∧ Json.read t = .ok (.list oss.flatten) := by
  obtain ⟨oss, ho, hf⟩ := s.exists_objects hs
  have hl : (Value.list oss.flatten).Fits Json.depthLimit := .list fun o ho => hf o ho 996
  refine ⟨_, oss, ?_, ho, rfl, Json.read_write Json.spaced_wire hl⟩
  rw [framed_eq, ho]
  rfl

/-- The text of a stream of typed commands denotes the list of their objects in order,
and the text of the empty stream is the empty list. -/
theorem Stream.framed_denotes {s : Stream} (hs : ∀ c ∈ s, c.Typed Value.IsNumber) :
    ∃ t oss, s.framed = .ok t ∧ s.mapM Command.objects = .ok oss ∧
      Json.read t = .ok (.list oss.flatten) ∧ (s = [] → t = "[]") := by
  obtain ⟨t, oss, ht, ho, hw, hr⟩ := exists_framed hs
  refine ⟨t, oss, ht, ho, hr, ?_⟩
  rintro rfl
  cases ho
  exact hw

/-- A press to two and a half with a wait after it, and a mark of characters that need care. -/
def Stream.awkward : Stream :=
  [.action ⟨.int 3, .int (-7), .float (.finite false (5 * 2 ^ 1073)), .int 0, .int 0, .int 20⟩,
    .marker (.text "\"],\\\n\x01é😀")]

theorem Stream.framed_denotes_awkward :
    ∃ t, awkward.framed = .ok t ∧ Json.read t = .ok (.list
      [.object [("f", .text "Actn"), ("a", .object [("dev", .int 3), ("code", .int (-7)),
          ("dn", .float (.finite false (5 * 2 ^ 1073)))])],
        .object [("f", .text "Wait"), ("a", .object [("dt", .int 20)])],
        .object [("f", .text "Mark"), ("a", .object [("mark", .text "\"],\\\n\x01é😀")])]]) := by
  have hs : ∀ c ∈ awkward, c.Typed Value.IsNumber := by
    intro c hc
    rcases List.mem_cons.mp hc with rfl | hc
    · have hint : ∀ n ∈ [(3 : Int), -7, 0, 20], (Value.int n).IsInteger := by decide
      have hdown : (Value.float (.finite false (5 * 2 ^ 1073))).IsNumber :=
        ⟨by decide +kernel, fun _ => by decide +kernel⟩
      exact .action (hint 3 (by decide)) (hint (-7) (by decide)) hdown (hint 0 (by decide))
        (hint 0 (by decide)) (hint 20 (by decide))
    · cases List.mem_singleton.mp hc
      exact .marker _
  obtain ⟨t, oss, ht, ho, hr, -⟩ := framed_denotes hs
  have hv : (awkward.mapM Command.objects).toOption = some
      [[.object [("f", .text "Actn"), ("a", .object [("dev", .int 3), ("code", .int (-7)),
          ("dn", .float (.finite false (5 * 2 ^ 1073)))])],
        .object [("f", .text "Wait"), ("a", .object [("dt", .int 20)])]],
      [.object [("f", .text "Mark"), ("a", .object [("mark", .text "\"],\\\n\x01é😀")])]]] := by
    decide +kernel
  rw [ho] at hv
  cases hv
  exact ⟨t, ht, hr⟩

end Cockpit
