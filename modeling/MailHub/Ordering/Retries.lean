import Mathlib.Data.List.Sort

/-!
# Passes over a list with retries

Each pass takes a window of the first `b` items of a list; an item of the window stays in its place
or leaves the list. Items that stay take places of the next windows, so the later items wait. After
`k` passes the items that were in a window are the first ones of the list, and all of them were when
the items that stayed took no more places again than `k` windows have to spare.
-/

namespace Ordering

variable {α : Type} {b k : ℕ} {stays : α → Bool} {l : List α} {a : α}

/-! ## Passes -/

/-- The list after one pass. -/
def retryPass (b : ℕ) (stays : α → Bool) (l : List α) : List α :=
  (l.take b).filter stays ++ l.drop b

/-- The list after `k` passes. -/
def afterPasses (b : ℕ) (stays : α → Bool) (l : List α) : ℕ → List α
  | 0 => l
  | k + 1 => retryPass b stays (afterPasses b stays l k)

/-- How many items have been in a window after `k` passes. -/
def reached (b : ℕ) (stays : α → Bool) (l : List α) : ℕ → ℕ
  | 0 => 0
  | k + 1 => min l.length (reached b stays l k +
      (b - (l.take (reached b stays l k)).countP stays))

/-- How many of the items that have been in a window after `k` passes stayed. -/
def retained (b : ℕ) (stays : α → Bool) (l : List α) (k : ℕ) : ℕ :=
  (l.take (reached b stays l k)).countP stays

/-- The places that items which stayed have taken again in `k` passes. -/
def retaken (b : ℕ) (stays : α → Bool) (l : List α) : ℕ → ℕ
  | 0 => 0
  | k + 1 => retaken b stays l k + min b (retained b stays l k)

theorem take_min_length (n : ℕ) : l.take (min l.length n) = l.take n := by
  rcases Nat.le_total l.length n with h | h
  · rw [Nat.min_eq_left h, List.take_length, List.take_of_length_le h]
  · rw [Nat.min_eq_right h]

theorem drop_min_length (n : ℕ) : l.drop (min l.length n) = l.drop n := by
  rcases Nat.le_total l.length n with h | h
  · rw [Nat.min_eq_left h, List.drop_length, List.drop_of_length_le h]
  · rw [Nat.min_eq_right h]

theorem reached_le : reached b stays l k ≤ l.length := by
  cases k with
  | zero => exact Nat.zero_le _
  | succ k => exact Nat.min_le_left _ _

theorem reached_succ : reached b stays l (k + 1) =
    min l.length (reached b stays l k + (b - retained b stays l k)) := rfl

/-- What is reached is what the windows hold beside the items that stayed. -/
theorem reached_add_retaken : reached b stays l k = min l.length (k * b - retaken b stays l k) ∧
    retaken b stays l k ≤ k * b := by
  induction k with
  | zero => simp [reached, retaken]
  | succ k ih =>
      obtain ⟨hreached, hle⟩ := ih
      have hplaces : (k + 1) * b = k * b + b := Nat.succ_mul k b
      rw [reached_succ, hreached, retaken, hplaces]
      omega

/-- A pass goes as far past the items that stayed as its window does. -/
theorem take_reached_succ : l.take (reached b stays l (k + 1)) =
    l.take (reached b stays l k) ++ (l.drop (reached b stays l k)).take (b - retained b stays l k) := by
  rw [reached_succ, take_min_length, List.take_add]

/-- The items that have been in a window are the first ones of the list, and those of them that
stayed are before the others. -/
theorem afterPasses_eq : afterPasses b stays l k =
    (l.take (reached b stays l k)).filter stays ++ l.drop (reached b stays l k) := by
  induction k with
  | zero => simp [afterPasses, reached]
  | succ k ih =>
      have hlength : ((l.take (reached b stays l k)).filter stays).length = retained b stays l k :=
        List.countP_eq_length_filter.symm
      rw [afterPasses, ih, retryPass, List.take_append, List.drop_append, List.filter_append,
        hlength, take_reached_succ, List.filter_append, reached_succ, drop_min_length,
        ← List.drop_drop]
      have hstay : (((l.take (reached b stays l k)).filter stays).take b).filter stays =
          ((l.take (reached b stays l k)).filter stays).take b :=
        List.filter_eq_self.mpr fun a ha => (List.mem_filter.mp (List.mem_of_mem_take ha)).2
      rw [hstay]
      rcases Nat.lt_or_ge (retained b stays l k) b with hroom | hfull
      · -- the window goes past the items that stayed
        have hdrop : ((l.take (reached b stays l k)).filter stays).drop b = [] :=
          List.drop_of_length_le (by omega)
        have htake : ((l.take (reached b stays l k)).filter stays).take b =
            (l.take (reached b stays l k)).filter stays := List.take_of_length_le (by omega)
        rw [hdrop, htake, List.nil_append]
      · -- the items that stayed fill the window
        have hnone : b - retained b stays l k = 0 := by omega
        rw [hnone, List.take_zero, List.filter_nil, List.append_nil, List.append_nil,
          ← List.append_assoc, List.take_append_drop]

/-- In a list without repetitions a pass drops the items of the window that do not stay. -/
theorem retryPass_eq_filter [DecidableEq α] (hl : l.Nodup) :
    retryPass b stays l = l.filter fun a => a ∉ l.take b || stays a := by
  have hdisjoint : List.Disjoint (l.take b) (l.drop b) :=
    List.disjoint_of_nodup_append (by rwa [List.take_append_drop])
  have hsplit : l.filter (fun a => a ∉ l.take b || stays a) =
      (l.take b).filter (fun a => a ∉ l.take b || stays a) ++
        (l.drop b).filter fun a => a ∉ l.take b || stays a := by
    rw [← List.filter_append, List.take_append_drop]
  rw [hsplit, retryPass]
  congr 1
  · refine List.filter_congr fun a ha => ?_
    simp [ha]
  · refine (List.filter_eq_self.mpr fun a ha => ?_).symm
    have hnot : a ∉ l.take b := fun htake => hdisjoint htake ha
    simp [hnot]

theorem afterPasses_nodup (hl : l.Nodup) : (afterPasses b stays l k).Nodup := by
  rw [afterPasses_eq]
  refine hl.sublist ?_
  conv_rhs => rw [← List.take_append_drop (reached b stays l k) l]
  exact List.Sublist.append List.filter_sublist (List.Sublist.refl _)

/-! ## What has been in a window -/

/-- The items of the list that have been in the window of one of the first `k` passes. -/
theorem mem_take_reached_iff : a ∈ l.take (reached b stays l k) ↔
    ∃ j < k, a ∈ (afterPasses b stays l j).take b := by
  induction k with
  | zero => simp [reached]
  | succ k ih =>
      have hlength : ((l.take (reached b stays l k)).filter stays).length = retained b stays l k :=
        List.countP_eq_length_filter.symm
      have hwindow : (afterPasses b stays l k).take b =
          ((l.take (reached b stays l k)).filter stays).take b ++
            (l.drop (reached b stays l k)).take (b - retained b stays l k) := by
        rw [afterPasses_eq, List.take_append, hlength]
      rw [take_reached_succ, List.mem_append, ih]
      constructor
      · rintro (⟨j, hj, ha⟩ | ha)
        · exact ⟨j, Nat.lt_succ_of_lt hj, ha⟩
        · exact ⟨k, Nat.lt_succ_self k, by rw [hwindow]; exact List.mem_append_right _ ha⟩
      · rintro ⟨j, hj, ha⟩
        rcases Nat.lt_succ_iff_lt_or_eq.mp hj with hj | rfl
        · exact .inl ⟨j, hj, ha⟩
        · rw [hwindow] at ha
          rcases List.mem_append.mp ha with ha | ha
          · exact .inl (ih.mp (List.mem_filter.mp (List.mem_of_mem_take ha)).1)
          · exact .inr ha

/-- Every item has been in a window after `k` passes exactly when the items that stayed have taken
no more places again than the windows have beside the items of the list. -/
theorem all_reached_iff (hl : l.Nodup) (hk : l.length ≤ k * b) :
    (∀ a ∈ l, ∃ j < k, a ∈ (afterPasses b stays l j).take b) ↔
      retaken b stays l k ≤ k * b - l.length := by
  obtain ⟨hreached, hle⟩ : reached b stays l k = min l.length (k * b - retaken b stays l k) ∧
    retaken b stays l k ≤ k * b := reached_add_retaken
  have hfull : (∀ a ∈ l, ∃ j < k, a ∈ (afterPasses b stays l j).take b) ↔
      l.length ≤ reached b stays l k := by
    simp only [← mem_take_reached_iff]
    constructor
    · intro hall
      have hsub : l ⊆ l.take (reached b stays l k) := fun a ha => hall a ha
      have hlength := (List.subperm_of_subset hl hsub).length_le
      rw [List.length_take] at hlength
      omega
    · intro hlength a ha
      rwa [List.take_of_length_le hlength]
  rw [hfull, hreached]
  omega

/-! ## Dropping items of a sorted list -/

variable {r : α → α → Prop} [DecidableRel r] {p : α → Bool}

/-- An item that comes before all of a list is inserted in front. -/
theorem orderedInsert_of_forall (h : ∀ c ∈ l, r a c) : l.orderedInsert r a = a :: l := by
  cases l with
  | nil => rfl
  | cons c l => rw [List.orderedInsert, if_pos (h c List.mem_cons_self)]

/-- Dropping items and inserting one can change places. -/
theorem filter_orderedInsert [IsTrans α r] (hl : l.Pairwise r) :
    (l.orderedInsert r a).filter p =
      if p a then (l.filter p).orderedInsert r a else l.filter p := by
  induction l with
  | nil => by_cases hp : p a <;> simp [hp]
  | cons c l ih =>
      obtain ⟨hc, hl⟩ := List.pairwise_cons.mp hl
      by_cases hac : r a c
      · have hfirst : ∀ d ∈ (c :: l).filter p, r a d := by
          intro d hd
          rcases List.mem_cons.mp (List.mem_filter.mp hd).1 with rfl | hd
          · exact hac
          · exact IsTrans.trans a c d hac (hc d hd)
        rw [List.orderedInsert, if_pos hac, List.filter_cons, orderedInsert_of_forall hfirst]
      · rw [List.orderedInsert, if_neg hac, List.filter_cons, List.filter_cons, ih hl]
        by_cases hp : p c
        · rw [if_pos hp, if_pos hp, List.orderedInsert, if_neg hac]
          by_cases hpa : p a
          · rw [if_pos hpa, if_pos hpa]
          · rw [if_neg hpa, if_neg hpa]
        · rw [if_neg hp, if_neg hp]

/-- Sorting keeps the order of equal items, so dropping items and sorting can change places. -/
theorem filter_insertionSort [IsTrans α r] [Std.Total r] :
    (l.insertionSort r).filter p = (l.filter p).insertionSort r := by
  induction l with
  | nil => rfl
  | cons a l ih =>
      rw [List.insertionSort_cons, filter_orderedInsert (List.pairwise_insertionSort r l), ih,
        List.filter_cons]
      by_cases hp : p a
      · rw [if_pos hp, if_pos hp, List.insertionSort_cons]
      · rw [if_neg hp, if_neg hp]

end Ordering
