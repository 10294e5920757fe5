import Cockpit.Proofs.Json.Layout
import Cockpit.Proofs.Op.Outcome
import Cockpit.Stream

/-!
# The text of a stream as one value

A stream is written command by command, and a command object by object, with
separators and brackets put between them by hand.  `Stream.framed_eq` says that
the result is the text of one list, which holds the objects of all commands in
order.
-/

namespace Cockpit

/-! ## Joining -/

/-- Joining joined texts is joining all of them. -/
theorem intercalate_map_intercalate {α : Type} (sep : String) (write : α → String)
    {xss : List (List α)} (h : ∀ xs ∈ xss, xs ≠ []) :
    sep.intercalate (xss.map fun xs => sep.intercalate (xs.map write)) =
      sep.intercalate (xss.flatten.map write) := by
  induction xss with
  | nil => rfl
  | cons xs xss ih =>
      have hxs : xs.map write ≠ [] := by simpa using h xs List.mem_cons_self
      rw [List.map_cons, List.flatten_cons, List.map_append]
      cases xss with
      | nil => simp
      | cons ys yss =>
          have hne : ((ys :: yss).flatten.map write) ≠ [] := by
            have := h ys (by simp)
            simp [this]
          rw [String.intercalate_cons_of_ne_nil (by simp),
            ih fun zs hz => h zs (List.mem_cons_of_mem xs hz),
            String.intercalate_append_of_ne_nil hxs hne]

/-- What is done to each result can be done to all of them. -/
theorem mapM_map_except {ε α β γ : Type} (f : α → Except ε β) (g : β → γ) (xs : List α) :
    xs.mapM (fun x => (f x).map g) = (xs.mapM f).map (List.map g) := by
  induction xs with
  | nil => rfl
  | cons x xs ih =>
      rw [List.mapM_cons, List.mapM_cons, ih]
      cases f x with
      | error e => rfl
      | ok y => cases xs.mapM f <;> rfl

theorem mapM_cons_eq_ok {ε α β : Type} {f : α → Except ε β} {x : α} {xs : List α} {ys : List β}
    (h : (x :: xs).mapM f = .ok ys) :
    ∃ y zs, ys = y :: zs ∧ f x = .ok y ∧ xs.mapM f = .ok zs := by
  rw [List.mapM_cons] at h
  obtain ⟨y, hx, h⟩ := Op.exists_of_bind_ok h
  obtain ⟨zs, hxs, h⟩ := Op.exists_of_bind_ok h
  cases h
  exact ⟨y, zs, rfl, hx, hxs⟩

theorem mem_of_mapM_ok {ε α β : Type} {f : α → Except ε β} {xs : List α} {ys : List β}
    (h : xs.mapM f = .ok ys) : ∀ y ∈ ys, ∃ x ∈ xs, f x = .ok y := by
  induction xs generalizing ys with
  | nil =>
      cases h
      exact nofun
  | cons x xs ih =>
      obtain ⟨y, zs, rfl, hx, hxs⟩ := mapM_cons_eq_ok h
      intro z hz
      rcases List.mem_cons.mp hz with rfl | hz
      · exact ⟨x, List.mem_cons_self, hx⟩
      · obtain ⟨w, hw, hf⟩ := ih hxs z hz
        exact ⟨w, List.mem_cons_of_mem x hw, hf⟩

/-! ## Streams -/

/-- What a command sends is its object and what comes behind it. -/
theorem Command.exists_of_objects {c : Command} {os : List Value} (h : c.objects = .ok os) :
    ∃ o ts, c.toObject = .ok o ∧ c.trailer = .ok ts ∧ os = o :: ts := by
  obtain ⟨o, ho, h⟩ := Op.exists_of_bind_ok h
  obtain ⟨ts, ht, h⟩ := Op.exists_of_bind_ok h
  cases h
  exact ⟨o, ts, ho, ht, rfl⟩

/-- A command sends at least one object. -/
theorem Command.objects_ne_nil {c : Command} {os : List Value} (h : c.objects = .ok os) :
    os ≠ [] := by
  obtain ⟨o, ts, -, -, rfl⟩ := exists_of_objects h
  exact List.cons_ne_nil o ts

namespace Json

theorem enclose_wire (level : Nat) (opening closing : Char) (texts : List (List Char)) :
    enclose .wire level opening closing texts =
      opening :: [','].intercalate texts ++ [closing] := by
  cases texts with
  | nil => rfl
  | cons t ts =>
      change (opening :: ([] ++ [','].intercalate (t :: ts)) ++ []) ++ [closing] = _
      rw [List.nil_append, List.append_nil]

mutual

/-- On a single line the level of nesting does not matter. -/
theorem writeAt_wire : ∀ (v : Value) (level : Nat), writeAt .wire level v = writeAt .wire 0 v
  | .null, _ => rfl
  | .bool _, _ => rfl
  | .int _, _ => rfl
  | .float _, _ => rfl
  | .text _, _ => rfl
  | .list xs, level => by
      rw [writeAt, writeAt, enclose_wire, enclose_wire, writeItems_wire xs (level + 1),
        writeItems_wire xs (0 + 1)]
  | .object es, level => by
      rw [writeAt, writeAt, enclose_wire, enclose_wire, writeEntries_wire es (level + 1),
        writeEntries_wire es (0 + 1)]

theorem writeItems_wire : ∀ (xs : List Value) (level : Nat),
    writeItems .wire level xs = writeItems .wire 0 xs
  | [], _ => rfl
  | x :: xs, level => by rw [writeItems, writeItems, writeAt_wire x level, writeItems_wire xs level]

theorem writeEntries_wire : ∀ (es : List (String × Value)) (level : Nat),
    writeEntries .wire level es = writeEntries .wire 0 es
  | [], _ => rfl
  | (k, x) :: es, level => by
      rw [writeEntries, writeEntries, writeAt_wire x level, writeEntries_wire es level]

end

/-- A list on one line, without blanks. -/
theorem write_wire_list (vs : List Value) :
    write .wire (.list vs) = "[" ++ ",".intercalate (vs.map (write .wire)) ++ "]" := by
  have hitems : writeItems .wire (0 + 1) vs = vs.map (writeAt .wire 0) := by
    rw [writeItems_wire, writeItems_eq]
  have hmap : (vs.map (write .wire)).map String.toList = vs.map (writeAt .wire 0) := by
    rw [List.map_map]
    exact List.map_congr_left fun v _ => String.toList_ofList
  rw [← String.toList_inj, write, String.toList_ofList, writeAt, enclose_wire, hitems]
  rw [String.toList_append, String.toList_append, String.toList_intercalate, hmap]
  rfl

end Json

/-- A framed stream is the text of the list of all its objects. -/
theorem Stream.framed_eq (s : Stream) :
    s.framed = (s.mapM Command.objects).map fun oss => Json.write .wire (.list oss.flatten) := by
  have hw : s.mapM Command.write = (s.mapM Command.objects).map (List.map fun vs =>
      Command.separator.intercalate (vs.map (Json.write .wire))) := mapM_map_except _ _ s
  rw [framed, write, hw]
  cases ho : s.mapM Command.objects with
  | error e => rfl
  | ok oss =>
      have hne : ∀ os ∈ oss, os ≠ [] := by
        intro os hos
        obtain ⟨c, -, hc⟩ := mem_of_mapM_ok ho os hos
        exact Command.objects_ne_nil hc
      simp only [Except.map]
      rw [intercalate_map_intercalate _ _ hne, Json.write_wire_list]
      rfl

end Cockpit
