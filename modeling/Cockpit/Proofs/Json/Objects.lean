import Cockpit.Proofs.Json.RoundTrip
import Mathlib.Data.List.Induction

/-!
# Objects that are read back

An object is read back if every value in it is.  A key may be written more than once, and then
the last value under it counts (`lastOf`).  What the object that is read back has under a key is
what that value is read back as (`Value.exists_reread_object`).
-/

namespace Cockpit

variable {es es' : List (String × Value)} {d : Nat} {w : Value}

/-! ## Last values -/

/-- The last value under a key. -/
def lastOf (es : List (String × Value)) (key : String) : Option Value := es.reverse.lookup key

namespace Entries

/-- Of a key that occurs twice the last value counts. -/
theorem get?_ofList (es : List (String × Value)) (key : String) :
    (ofList es).get? key = lastOf es key := by
  induction es using List.reverseRecOn with
  | nil => rfl
  | append_singleton es e ih =>
      obtain ⟨k, v⟩ := e
      have hput : ofList (es ++ [(k, v)]) = (ofList es).put k v := List.foldl_append
      rw [hput, lastOf, List.reverse_append, List.reverse_singleton, List.singleton_append,
        List.lookup_cons]
      by_cases hk : key = k
      · rw [hk, get?_put_self, beq_self_eq_true]
      · rw [get?_put_of_ne _ hk, ih, beq_eq_false_iff_ne.mpr hk]
        rfl

end Entries

/-! ## Values in objects -/

/-- Looking a key up commutes with a function of the values that gives all of them. -/
theorem lookup_of_forall₂ {f : Value → Option Value}
    (h : List.Forall₂ (fun e e' => (f e.2).map (e.1, ·) = some e') es es') (key : String) :
    es'.lookup key = (es.lookup key).bind f := by
  induction h with
  | nil => rfl
  | @cons e e' es es' he _ ih =>
      obtain ⟨v, hv, rfl⟩ := Option.map_eq_some_iff.mp he
      rw [List.lookup_cons, List.lookup_cons]
      cases key == e.1 with
      | true => exact hv.symm
      | false => exact ih

theorem exists_mapM {α β : Type} {f : α → Option β} {xs : List α} :
    (∃ ys, xs.mapM f = some ys) ↔ ∀ x ∈ xs, ∃ y, f x = some y := by
  induction xs with
  | nil => exact iff_of_true ⟨[], rfl⟩ nofun
  | cons x xs ih =>
      rw [List.forall_mem_cons, ← ih]
      cases hx : f x with
      | none => simp [hx]
      | some y => cases hxs : xs.mapM f <;> simp [hx, hxs]

theorem exists_of_mapM {α β : Type} {f : α → Option β} {xs : List α} {ys : List β} {y : β}
    (h : xs.mapM f = some ys) (hy : y ∈ ys) : ∃ x ∈ xs, f x = some y := by
  have hf := mapM_eq_some_iff.mp h
  induction hf with
  | nil => cases hy
  | @cons x _ xs ys hx hxs ih =>
      rcases List.mem_cons.mp hy with rfl | hy
      · exact ⟨x, List.mem_cons_self, hx⟩
      · obtain ⟨x', hmem, hx'⟩ := ih (mapM_eq_some_iff.mpr hxs) hy
        exact ⟨x', List.mem_cons_of_mem x hmem, hx'⟩

namespace Value

/-- An object whose values are read back has the last one under each key. -/
theorem exists_reread_object (h : ∀ e ∈ es, ∃ w, e.2.reread d = some w) :
    ∃ es' : Entries, (Value.object es).reread (d + 1) = some (.object es') ∧
      ∀ key, es'.get? key = (lastOf es key).bind (reread d) := by
  obtain ⟨es', hes'⟩ : ∃ es', (es.mapM fun e => (e.2.reread d).map (e.1, ·)) = some es' := by
    refine exists_mapM.mpr fun e he => ?_
    obtain ⟨w, hw⟩ := h e he
    exact ⟨(e.1, w), by rw [hw]; rfl⟩
  refine ⟨Entries.ofList es', ?_, fun key => ?_⟩
  · rw [reread_object, hes']
    rfl
  · rw [Entries.get?_ofList, lastOf, lastOf]
    exact lookup_of_forall₂ (List.rel_reverse (mapM_eq_some_iff.mp hes')) key

/-- An object is read back only if its values are. -/
theorem exists_reread_of_object (h : (Value.object es).reread (d + 1) = some w)
    {e : String × Value} (he : e ∈ es) : ∃ u, e.2.reread d = some u := by
  rw [reread_object, Option.map_eq_some_iff] at h
  obtain ⟨es', hes', -⟩ := h
  obtain ⟨e', he'⟩ := exists_mapM.mp ⟨es', hes'⟩ e he
  obtain ⟨u, hu, -⟩ := Option.map_eq_some_iff.mp he'
  exact ⟨u, hu⟩

/-- An entry of an object that is read back is one of the object, with its value read back. -/
theorem exists_mem_of_reread {es' : Entries}
    (h : (Value.object es).reread (d + 1) = some (.object es')) {key : String} {v : Value}
    (hmem : (key, v) ∈ es') : ∃ u, (key, u) ∈ es ∧ u.reread d = some v := by
  rw [reread_object, Option.map_eq_some_iff] at h
  obtain ⟨ds, hds, heq⟩ := h
  obtain rfl := Value.object.inj heq
  have hin : (key, v) ∈ ds := (Entries.ofList_keeps (P := (· ∈ ds)) fun _ h => h).2 _ hmem
  obtain ⟨e, he, hev⟩ := exists_of_mapM hds hin
  obtain ⟨w, hw, hpair⟩ := Option.map_eq_some_iff.mp hev
  cases hpair
  exact ⟨e.2, he, hw⟩

end Value

namespace Json

/-- How deep a value inside an object may be nested. -/
def innerLimit : Nat := depthLimit - 1

/-- Whether the reader takes the text of a value inside an object. -/
def Readable (s : Style) (v : Value) : Prop :=
  ∃ w, read (write s (.object [("", v)])) = .ok w

variable {s : Style}

theorem Readable.reread (hs : s.Spaced) {v : Value} (h : Readable s v) :
    ∃ w, v.reread innerLimit = some w := by
  obtain ⟨u, hu⟩ := h
  rcases read_write_cases hs (.object [("", v)]) with ⟨w, hw, -⟩ | ⟨-, f, hf, -⟩
  · exact Value.exists_reread_of_object (d := innerLimit) hw List.mem_cons_self
  · cases hf.symm.trans hu

/-- A value that fits is taken. -/
theorem readable_of_fits (hs : s.Spaced) {v : Value} (h : v.Fits innerLimit) : Readable s v := by
  have hkeys : [("", v)].map Prod.fst = [""] := rfl
  refine ⟨_, read_write hs (.object (by rw [hkeys]; decide) fun e he => ?_)⟩
  exact List.mem_singleton.mp he ▸ h

/-- The text of an object is read if the values in it are, and then the last values count. -/
theorem read_object (hs : s.Spaced) (h : ∀ e ∈ es, Readable s e.2) :
    ∃ es' : Entries, read (write s (.object es)) = .ok (.object es') ∧
      ∀ key, es'.get? key = (lastOf es key).bind (Value.reread innerLimit) := by
  obtain ⟨es', hreread, hlast⟩ := Value.exists_reread_object fun e he => (h e he).reread hs
  refine ⟨es', ?_, hlast⟩
  rcases read_write_cases hs (.object es) with ⟨w, hw, hread⟩ | ⟨hnone, -⟩
  · rw [hread, Option.some.inj (hw.symm.trans hreread)]
  · cases hnone.symm.trans hreread

end Json

end Cockpit
