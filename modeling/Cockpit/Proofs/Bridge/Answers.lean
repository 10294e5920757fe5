import Cockpit.Proofs.Bridge.History

/-!
# Queries and their answers

A query is answered by the first response that arrives while it holds the slot, and by
no other one.

`Answers es t v k i` says which delivery of a history answers which call.
`Course.answered` finds, for a call that ends with a value, the delivery that brought
it, by induction on the course: what its sender did is a course of its own, in which
the ticket is kept until that delivery.

`Deed.answered_by_first_response` says this of all runs of deeds on the bridge, and
that no delivery answers two calls.
-/

namespace Cockpit

namespace Bridge

variable {b c d : Bridge} {es fs : List Event} {g h : List Moment} {t u : Ticket} {v w : Value}
  {r o : Except Fault Value} {i j k : Nat}

/-! ## Calls that end with a value -/

/-- A call that waited ends with a value only if a response that was set came first. -/
theorem Finish.answered_of_kept (h : Finish t r c (.ok v) d) (hv : v ≠ .null)
    (hp : b.fate t = .pending) (hk : Kept t b es c) :
    ∃ waiting later, es = waiting ++ .delivered v (.ok true) :: later ∧ v.isSet = true ∧
      Quiet waiting := by
  cases h with
  | answered _ hf =>
      cases hk with
      | still _ hf' _ =>
          rw [hf, hp] at hf'
          cases hf'
      | @answered waiting later w _ hf' he hw hq =>
          obtain rfl : v = w := Fate.answered.inj (hf.symm.trans hf')
          exact ⟨waiting, later, he, hw, hq⟩
      | cancelled _ hf' _ _ =>
          rw [hf] at hf'
          cases hf'
  | abandoned _ _ => exact absurd rfl hv
  | timedOut _ _ ho => exact absurd (ho v rfl) hv
  | failed _ => exact absurd rfl hv

/-- A history up to the end of a call that ends with a value: the call got the slot, all
was quiet until the value arrived, and the sender ended just before the call. -/
def EndsAnswered (es : List Event) (t : Ticket) (v : Value) : Prop :=
  ∃ earlier waiting later r, es = earlier ++ .reserved t :: (waiting ++
    .delivered v (.ok true) :: (later ++ [.sent t r])) ∧ v.isSet = true ∧ Quiet waiting

theorem EndsAnswered.after (h : EndsAnswered es t v) (fs : List Event) :
    EndsAnswered (fs ++ es) t v := by
  obtain ⟨earlier, waiting, later, r, rfl, hv, hq⟩ := h
  exact ⟨fs ++ earlier, waiting, later, r, (List.append_assoc _ _ _).symm, hv, hq⟩

/-- Two lists in a row, cut before an entry: the entry is in the first or in the second. -/
theorem append_eq_cut {α : Type} {xs ys before rest : List α} {x : α}
    (h : xs ++ ys = before ++ x :: rest) :
    (∃ rest', xs = before ++ x :: rest') ∨
      ∃ before', before = xs ++ before' ∧ ys = before' ++ x :: rest := by
  rcases List.append_eq_append_iff.mp h with ⟨m, hb, hy⟩ | ⟨m, hx, hr⟩
  · exact Or.inr ⟨m, hb, hy⟩
  · cases m with
    | nil => exact Or.inr ⟨[], by rw [hx, List.append_nil, List.append_nil], hr.symm⟩
    | cons y m =>
        obtain ⟨rfl, -⟩ := List.cons.inj hr
        exact Or.inl ⟨m, hx⟩

/-- Of the end of a sender and the end of its call, the second is an end of a call. -/
theorem eq_of_pair_eq_cut {before rest : List Event} {v : Value} {t' : Option Ticket}
    (h : [.sent t r, .ended (some u) o] = before ++ .ended t' (.ok v) :: rest) :
    before = [.sent t r] ∧ t' = some u ∧ o = .ok v := by
  cases before with
  | nil => cases (List.cons.inj h).1
  | cons x before =>
      obtain ⟨rfl, htail⟩ := List.cons.inj h
      cases before with
      | nil =>
          obtain ⟨hx, -⟩ := List.cons.inj htail
          cases hx
          exact ⟨rfl, rfl, rfl⟩
      | cons y before => simp at htail

/-- A call ends with a value only if this value was its first response. -/
theorem Course.answered (h : Course b g c) :
    ∀ {before rest : List Event} {u : Option Ticket} {v : Value},
      events g = before ++ .ended u (.ok v) :: rest → v ≠ .null →
        ∃ t, u = some t ∧ EndsAnswered before t v := by
  induction h with
  | nil =>
      intro before rest u v he
      simp [events] at he
  | turn h =>
      intro before rest u v he hv
      cases before with
      | nil =>
          obtain ⟨rfl, -⟩ := List.cons.inj he
          cases h with
          | refused ho => exact absurd (ho v rfl) hv
      | cons x before => simp [events] at he
  | append _ _ ihg ihh =>
      intro before rest u v he hv
      rw [events, List.map_append] at he
      rcases append_eq_cut he with ⟨rest', hg⟩ | ⟨before', rfl, hh⟩
      · exact ihg hg hv
      · obtain ⟨t, ht, ha⟩ := ihh hh hv
        exact ⟨t, ht, ha.after _⟩
  | @call b c d h r o _ _ hh hd ih =>
      intro before rest u v he hv
      rw [events_callHistory] at he
      cases before with
      | nil => cases (List.cons.inj he).1
      | cons x before =>
          obtain ⟨rfl, htail⟩ := List.cons.inj he
          -- The call that ends is one within the sender, or it is this one.
          rcases append_eq_cut htail with ⟨rest', hin⟩ | ⟨before', rfl, hend⟩
          · obtain ⟨t, ht, ha⟩ := ih hin hv
            exact ⟨t, ht, ha.after [_]⟩
          · obtain ⟨rfl, rfl, rfl⟩ := eq_of_pair_eq_cut hend
            have hlt : b.fates.length < b.take.fates.length := by
              rw [length_take]
              exact Nat.lt_succ_self _
            have hk := hh.held hlt (slot_take b)
            obtain ⟨waiting, later, hev, hset, hq⟩ :=
              hd.answered_of_kept hv (fate_take_self b) hk
            refine ⟨_, rfl, [], waiting, later, r, ?_, hset, hq⟩
            rw [hev, List.append_assoc]
            rfl
  | unsent _ _ =>
      intro before rest u v he hv
      cases before with
      | nil => cases (List.cons.inj he).1
      | cons x before =>
          cases before with
          | nil => cases (List.cons.inj (List.cons.inj he).2).1
          | cons y before => simp [events] at he

/-! ## Deliveries and the calls they answer -/

/-- The delivery at place `k` of a history answers the call that ends at place `i` with a
ticket and a value.  The call got the slot before, at place `j`, its sender ended later,
just before the call, and nothing came between `j` and `k` that answers or gives up a
query. -/
def Answers (es : List Event) (t : Ticket) (v : Value) (k i : Nat) : Prop :=
  ∃ j m r, j < k ∧ k < m ∧ m + 1 = i ∧
    es[j]? = some (.reserved t) ∧ es[k]? = some (.delivered v (.ok true)) ∧
    es[m]? = some (.sent t r) ∧ es[i]? = some (.ended (some t) (.ok v)) ∧ v.isSet = true ∧
    ∀ x e, j < x → x < k → es[x]? = some e → e.isQuiet = true

/-- The entry after a part of a list stands at the length of that part. -/
theorem getElem?_cut {α : Type} {xs before rest : List α} {x : α} {n : Nat}
    (h : xs = before ++ x :: rest) (hn : before.length = n) : xs[n]? = some x := by
  subst h hn
  rw [List.getElem?_append_right (Nat.le_refl _), Nat.sub_self, List.getElem?_cons_zero]

/-- A list is cut before the entry at a place. -/
theorem exists_cut_of_getElem? {α : Type} {xs : List α} {x : α} {n : Nat}
    (h : xs[n]? = some x) : ∃ before rest, xs = before ++ x :: rest ∧ before.length = n := by
  obtain ⟨hn, hx⟩ := List.getElem?_eq_some_iff.mp h
  refine ⟨xs.take n, xs.drop (n + 1), ?_, List.length_take_of_le (Nat.le_of_lt hn)⟩
  rw [← hx, ← List.drop_eq_getElem_cons hn, List.take_append_drop]

/-- What stands between two parts of a list is in the part between. -/
theorem mem_of_getElem?_between {α : Type} {before mid rest : List α} {x : α} {n : Nat}
    (hle : before.length ≤ n) (hlt : n < before.length + mid.length)
    (h : (before ++ (mid ++ rest))[n]? = some x) : x ∈ mid := by
  rw [List.getElem?_append_right hle, List.getElem?_append_left (by omega)] at h
  exact List.mem_of_getElem? h

/-- A history with a call that was answered, by the parts around its events. -/
theorem answers_of_parts (earlier waiting later rest : List Event)
    (he : es = earlier ++ .reserved t :: (waiting ++ .delivered v (.ok true) ::
      (later ++ .sent t r :: .ended (some t) (.ok v) :: rest)))
    (hv : v.isSet = true) (hq : Quiet waiting) :
    Answers es t v (earlier.length + 1 + waiting.length)
      (earlier.length + 1 + waiting.length + 1 + later.length + 1) := by
  have hk : es = (earlier ++ .reserved t :: waiting) ++ .delivered v (.ok true) ::
      (later ++ .sent t r :: .ended (some t) (.ok v) :: rest) := by
    simp [he]
  have hm : es = (earlier ++ .reserved t :: (waiting ++ .delivered v (.ok true) :: later)) ++
      .sent t r :: .ended (some t) (.ok v) :: rest := by
    simp [he]
  have hi : es = (earlier ++ .reserved t :: (waiting ++ .delivered v (.ok true) ::
      (later ++ [.sent t r]))) ++ .ended (some t) (.ok v) :: rest := by
    simp [he]
  refine ⟨earlier.length, earlier.length + 1 + waiting.length + 1 + later.length, r,
    by omega, by omega, rfl, getElem?_cut he rfl, getElem?_cut hk ?_, getElem?_cut hm ?_,
    getElem?_cut hi ?_, hv, ?_⟩
  · simp only [List.length_append, List.length_cons]
    omega
  · simp only [List.length_append, List.length_cons]
    omega
  · simp only [List.length_append, List.length_cons, List.length_nil]
    omega
  · intro x e hjx hxk hx
    have hwait : es = (earlier ++ [.reserved t]) ++ (waiting ++ .delivered v (.ok true) ::
        (later ++ .sent t r :: .ended (some t) (.ok v) :: rest)) := by
      simp [he]
    have hlen : (earlier ++ [Event.reserved t]).length = earlier.length + 1 := by simp
    rw [hwait] at hx
    exact hq e (mem_of_getElem?_between (by omega) (by omega) hx)

/-- An end with a value is answered by a delivery in the history. -/
theorem EndsAnswered.answers {before rest : List Event} (h : EndsAnswered before t v) :
    ∃ k, Answers (before ++ .ended (some t) (.ok v) :: rest) t v k before.length := by
  obtain ⟨earlier, waiting, later, r, hb, hv, hq⟩ := h
  have hlen : before.length = earlier.length + 1 + waiting.length + 1 + later.length + 1 := by
    simp only [hb, List.length_append, List.length_cons, List.length_nil]
    omega
  rw [hlen]
  exact ⟨_, answers_of_parts earlier waiting later rest (r := r) (by simp [hb]) hv hq⟩

/-- Entries of a list that are pairwise apart do not end one ticket at two places. -/
theorem place_unique {o p : Except Fault Value} (h : es.Pairwise Apart)
    (hi : es[i]? = some (.ended (some t) o)) (hj : es[j]? = some (.ended (some t) p)) :
    i = j := by
  obtain ⟨hli, hi⟩ := List.getElem?_eq_some_iff.mp hi
  obtain ⟨hlj, hj⟩ := List.getElem?_eq_some_iff.mp hj
  have hp := List.pairwise_iff_getElem.mp h
  rcases Nat.lt_trichotomy i j with hlt | heq | hgt
  · have ha := hp i j hli hlj hlt
    rw [hi, hj] at ha
    exact absurd rfl (ha t rfl)
  · exact heq
  · have ha := hp j i hlj hli hgt
    rw [hi, hj] at ha
    exact absurd rfl (ha t rfl)

/-- A delivery answers one ticket, since the slot does not change hands while all is quiet. -/
theorem Answers.ticket_eq {i' : Nat} (h : Answers es t v k i) (h' : Answers es u w k i') :
    t = u := by
  obtain ⟨j, _, _, hjk, _, _, hj, -, -, -, -, hq⟩ := h
  obtain ⟨j', _, _, hjk', _, _, hj', -, -, -, -, hq'⟩ := h'
  rcases Nat.lt_trichotomy j j' with hlt | rfl | hgt
  · cases hq j' _ hlt hjk' hj'
  · exact Event.reserved.inj (Option.some.inj (hj.symm.trans hj'))
  · cases hq' j _ hgt hjk hj

/-- A delivery answers at most one call. -/
theorem Answers.unique {i' : Nat} (hp : es.Pairwise Apart) (h : Answers es t v k i)
    (h' : Answers es u w k i') : i = i' := by
  obtain rfl := h.ticket_eq h'
  obtain ⟨_, _, _, _, _, _, _, _, _, hi, _⟩ := h
  obtain ⟨_, _, _, _, _, _, _, _, _, hi', _⟩ := h'
  exact place_unique hp hi hi'

end Bridge

/-! ## Runs of deeds -/

open Bridge

/-- In every run of deeds on the bridge, a query call that ends with a value got it from
the first response that was set and arrived after the call got the slot and before its
sender ended, with no closing between.  No two calls have one ticket, and no response
answers two calls. -/
theorem Deed.answered_by_first_response (ds : List Deed) (hb : Deed.areOnBridge ds = true)
    (place : Nat) (s : Session) :
    (∀ (i : Nat) (t : Option Ticket) (v : Value),
      (Deed.eventsOfAll ds place s)[i]? = some (.ended t (.ok v)) → v ≠ .null →
        ∃ n k, t = some n ∧ Answers (Deed.eventsOfAll ds place s) n v k i) ∧
    (∀ (i j : Nat) (t : Ticket) (o p : Except Fault Value),
      (Deed.eventsOfAll ds place s)[i]? = some (.ended (some t) o) →
        (Deed.eventsOfAll ds place s)[j]? = some (.ended (some t) p) → i = j) ∧
    (∀ (i j k : Nat) (t u : Ticket) (v w : Value),
      Answers (Deed.eventsOfAll ds place s) t v k i →
        Answers (Deed.eventsOfAll ds place s) u w k j → i = j) := by
  have hc := Deed.historyOfAll_course ds hb place s
  refine ⟨?_, ?_, ?_⟩
  · intro i t v hi hv
    obtain ⟨before, rest, he, hlen⟩ := exists_cut_of_getElem? hi
    obtain ⟨n, rfl, ha⟩ := hc.answered he hv
    obtain ⟨k, hk⟩ := ha.answers
    rw [he, ← hlen]
    exact ⟨n, k, rfl, hk⟩
  · intro i j t o p hi hj
    exact place_unique hc.ends_once hi hj
  · intro i j k t u v w h h'
    exact h.unique hc.ends_once h'

/-- A query whose sender brings an empty response, asks again in vain, is answered, asks
once more, and brings a response that is too late. -/
def crowdedQuery : List Deed :=
  [.respond (.text "stray"),
    .query (.text "GetMode") .null .null
      [.respond (.text ""),
        .query (.text "GetAltitude") .null .null [.respond (.text "lost")] (.gives (.bool true)),
        .respond (.text "first"),
        .query (.text "GetSpeed") .null .null [.respond (.text "second")] (.gives (.bool true)),
        .respond (.text "late")]
      (.gives (.bool true)),
    .close, .reopen]

/-- A session that has done nothing yet. -/
def idleSession : Session := { files := { root := "/" }, bridge := { timeout := .int 30 } }

theorem Deed.answered_by_first_response_crowded :
    Deed.areOnBridge crowdedQuery = true ∧
    (∃ k, Answers (Deed.eventsOfAll crowdedQuery 0 idleSession) 0 (.text "first") k 11) ∧
    (∃ k, Answers (Deed.eventsOfAll crowdedQuery 0 idleSession) 1 (.text "second") k 8) ∧
    ∀ k, Answers (Deed.eventsOfAll crowdedQuery 0 idleSession) 0 (.text "first") k 11 →
      ¬ Answers (Deed.eventsOfAll crowdedQuery 0 idleSession) 1 (.text "second") k 8 := by
  have houter : (Deed.eventsOfAll crowdedQuery 0 idleSession)[11]? =
      some (.ended (some 0) (.ok (.text "first"))) := rfl
  have hinner : (Deed.eventsOfAll crowdedQuery 0 idleSession)[8]? =
      some (.ended (some 1) (.ok (.text "second"))) := rfl
  obtain ⟨hanswered, -, hunique⟩ :=
    Deed.answered_by_first_response crowdedQuery rfl 0 idleSession
  refine ⟨rfl, ?_, ?_, ?_⟩
  · obtain ⟨n, k, hn, hk⟩ := hanswered 11 _ _ houter nofun
    cases hn
    exact ⟨k, hk⟩
  · obtain ⟨n, k, hn, hk⟩ := hanswered 8 _ _ hinner nofun
    cases hn
    exact ⟨k, hk⟩
  · intro k h h'
    cases hunique _ _ k _ _ _ _ h h'

end Cockpit
