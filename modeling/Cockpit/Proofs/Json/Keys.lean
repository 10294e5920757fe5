import Cockpit.Value.Basic

/-!
# Objects without a key twice

An object that is put together from entries in reading order has no key twice, because a later
value of a key takes the place of the first one.  `Value.Keyed` says that a value has no key
twice in any object within it.
-/

namespace Cockpit

namespace Entries

variable {es : Entries} {key : String} {v : Value}

/-- The keys after a value was put under one: the old ones in order, with this one at the end
if it is new. -/
theorem keys_put (es : Entries) (key : String) (v : Value) :
    (es.put key v).map Prod.fst =
      if key ∈ es.map Prod.fst then es.map Prod.fst else es.map Prod.fst ++ [key] := by
  have hany : (es.any (·.1 == key)) = true ↔ key ∈ es.map Prod.fst := by
    rw [List.any_eq_true, List.mem_map]
    exact exists_congr fun e => and_congr_right fun _ => beq_iff_eq
  rw [put]
  by_cases h : key ∈ es.map Prod.fst
  · rw [if_pos (hany.mpr h), if_pos h, List.map_map]
    refine List.map_congr_left fun e _ => ?_
    by_cases he : e.1 = key
    · rw [Function.comp, if_pos he, he]
    · rw [Function.comp, if_neg he]
  · rw [if_neg (fun ha => h (hany.mp ha)), if_neg h, List.map_append]
    rfl

theorem nodup_put (h : (es.map Prod.fst).Nodup) (key : String) (v : Value) :
    ((es.put key v).map Prod.fst).Nodup := by
  rw [keys_put]
  split
  · exact h
  · rename_i hn
    rw [List.nodup_append]
    refine ⟨h, List.pairwise_singleton _ key, fun a ha b hb he => hn ?_⟩
    rwa [← List.mem_singleton.mp hb, ← he]

/-- The values after one was put are that one and some of the old ones. -/
theorem mem_put {e : String × Value} (h : e ∈ es.put key v) : e = (key, v) ∨ e ∈ es := by
  unfold put at h
  split at h
  · obtain ⟨d, hd, rfl⟩ := List.mem_map.mp h
    split
    · exact Or.inl rfl
    · exact Or.inr hd
  · rcases List.mem_append.mp h with h | h
    · exact Or.inr h
    · exact Or.inl (List.mem_singleton.mp h)

/-- What holds of the entries that are put in one after another, holds of all. -/
theorem foldl_put_keeps {P : String × Value → Prop} {ds es : Entries}
    (hk : (ds.map Prod.fst).Nodup) (hd : ∀ e ∈ ds, P e) (he : ∀ e ∈ es, P e) :
    ((es.foldl (fun d e => put d e.1 e.2) ds).map Prod.fst).Nodup ∧
      ∀ e ∈ es.foldl (fun d e => put d e.1 e.2) ds, P e := by
  induction es generalizing ds with
  | nil => exact ⟨hk, hd⟩
  | cons e es ih =>
      refine ih (nodup_put hk e.1 e.2) (fun d hmem => ?_) fun d hmem => ?_
      · rcases mem_put hmem with rfl | hmem
        · exact he _ List.mem_cons_self
        · exact hd d hmem
      · exact he d (List.mem_cons_of_mem e hmem)

/-- An object from entries has no key twice, and only entries that were there. -/
theorem ofList_keeps {P : String × Value → Prop} {es : List (String × Value)}
    (h : ∀ e ∈ es, P e) : ((ofList es).map Prod.fst).Nodup ∧ ∀ e ∈ ofList es, P e :=
  foldl_put_keeps List.nodup_nil (fun _ he => absurd he List.not_mem_nil) h

/-- The value under a key is that of the entry with the key. -/
theorem get?_eq_some_iff (h : (es.map Prod.fst).Nodup) : es.get? key = some v ↔ (key, v) ∈ es := by
  rw [get?]
  induction es with
  | nil => exact ⟨nofun, fun hm => absurd hm List.not_mem_nil⟩
  | cons e es ih =>
      obtain ⟨k, u⟩ := e
      obtain ⟨hk, ht⟩ := List.nodup_cons.mp h
      by_cases he : key = k
      · subst he
        rw [List.lookup_cons_self, Option.some_inj]
        constructor
        · rintro rfl
          exact List.mem_cons_self
        · intro hm
          rcases List.mem_cons.mp hm with hm | hm
          · exact (Prod.mk.inj hm).2.symm
          · exact absurd (List.mem_map.mpr ⟨_, hm, rfl⟩) hk
      · have hb : (key == k) = false := by simpa using he
        rw [List.lookup_cons, hb, ih ht, List.mem_cons]
        exact ⟨Or.inr, fun hm => hm.resolve_left fun hm => he (Prod.mk.inj hm).1⟩

end Entries

/-- Whether no object within a value has a key twice. -/
inductive Value.Keyed : Value → Prop where
  | null : Keyed .null
  | bool (b : Bool) : Keyed (.bool b)
  | int (n : Int) : Keyed (.int n)
  | float (x : Double) : Keyed (.float x)
  | text (s : String) : Keyed (.text s)
  | list {xs : List Value} (h : ∀ x ∈ xs, Keyed x) : Keyed (.list xs)
  | object {es : Entries} (hk : (es.map Prod.fst).Nodup) (h : ∀ e ∈ es, Keyed e.2) :
    Keyed (.object es)

end Cockpit
