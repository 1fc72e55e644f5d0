import Mathlib.Data.List.Sort

/-!
# Reading a sorted list page by page

A reader answers with the rows of a sorted list behind a cursor, at most `limit` of them, and names
the cursor of the next page: the last row of this one, when rows remain. Following the cursors from
the first page comes to an end, and the pages together are the list.
-/

namespace Ordering

variable {α β γ κ π : Type*}

/-! ## Sorting by a place -/

section Sorting

variable [LinearOrder κ] (place : α → κ) (l : List α)

/-- A list sorted by a place is in the order of the places. -/
theorem pairwise_insertionSort_le :
    (l.insertionSort fun a b => place a ≤ place b).Pairwise fun a b => place a ≤ place b := by
  have htotal : Std.Total fun a b => place a ≤ place b := ⟨fun a b => le_total (place a) (place b)⟩
  have htrans : IsTrans α fun a b => place a ≤ place b := ⟨fun _ _ _ => le_trans⟩
  exact List.pairwise_insertionSort _ l

/-- Rows with places of their own are sorted strictly. -/
theorem pairwise_insertionSort_lt (hl : l.Nodup)
    (hplace : ∀ a ∈ l, ∀ b ∈ l, place a = place b → a = b) :
    (l.insertionSort fun a b => place a ≤ place b).Pairwise fun a b => place a < place b := by
  have hperm := List.perm_insertionSort (fun a b => place a ≤ place b) l
  have hnodup : (l.insertionSort fun a b => place a ≤ place b).Pairwise fun a b => a ≠ b :=
    hperm.nodup_iff.mpr hl
  refine List.Pairwise.imp_of_mem ?_ (hnodup.and (pairwise_insertionSort_le place l))
  rintro a b ha hb ⟨hne, hle⟩
  have ha := hperm.mem_iff.mp ha
  have hb := hperm.mem_iff.mp hb
  exact lt_of_le_of_ne hle fun heq => hne (hplace a ha b hb heq)

/-- The first row of a sorted list is a least one. -/
theorem head?_insertionSort_le {a b : α}
    (ha : (l.insertionSort fun a b => place a ≤ place b).head? = some a) (hb : b ∈ l) :
    place a ≤ place b := by
  have hmem := (List.mem_insertionSort fun a b => place a ≤ place b).mpr hb
  obtain ⟨rest, hsort⟩ := List.head?_eq_some_iff.mp ha
  have hsorted := pairwise_insertionSort_le place l
  rw [hsort] at hmem hsorted
  rcases List.mem_cons.mp hmem with rfl | hmem
  · exact le_rfl
  · exact (List.pairwise_cons.mp hsorted).1 b hmem

end Sorting

/-! ## Rows behind a place -/

section Rows

variable [LinearOrder κ] (place : α → κ) {l : List α} {a : α} {after : Option κ}

/-- The rows behind a place, or all rows without one. -/
def rowsAfter (after : Option κ) (l : List α) : List α :=
  l.filter fun a => after.all fun k => k < place a

@[simp] theorem rowsAfter_none : rowsAfter place none l = l := by
  simp [rowsAfter]

theorem rowsAfter_some (k : κ) :
    rowsAfter place (some k) l = l.filter fun a => decide (k < place a) := rfl

theorem rowsAfter_sublist : (rowsAfter place after l).Sublist l := List.filter_sublist

/-- In a sorted list the rows behind a row are those that follow it. -/
theorem rowsAfter_getElem (hl : l.Pairwise fun a b => place a < place b) {i : ℕ}
    (hi : i < l.length) : rowsAfter place (some (place l[i])) l = l.drop (i + 1) := by
  induction l generalizing i with
  | nil => exact absurd hi (Nat.not_lt_zero i)
  | cons b l ih =>
      obtain ⟨hb, hl⟩ := List.pairwise_cons.mp hl
      cases i with
      | zero =>
          have hall : ∀ c ∈ l, decide (place b < place c) = true :=
            fun c hc => decide_eq_true (hb c hc)
          have hhead : ¬ decide (place b < place b) = true := by simp
          rw [List.getElem_cons_zero, rowsAfter_some,
            List.filter_cons_of_neg (p := fun a => decide (place b < place a)) hhead,
            List.filter_eq_self.mpr hall]
          rfl
      | succ i =>
          have hi : i < l.length := Nat.lt_of_succ_lt_succ hi
          have hhead : ¬ decide (place l[i] < place b) = true := by
            simpa using le_of_lt (hb _ (List.getElem_mem hi))
          rw [List.getElem_cons_succ, rowsAfter_some,
            List.filter_cons_of_neg (p := fun a => decide (place l[i] < place a)) hhead,
            ← rowsAfter_some, ih hl hi]
          rfl

/-- Behind a row that stands behind a place, the place leaves nothing further out. -/
theorem rowsAfter_rowsAfter (ha : a ∈ rowsAfter place after l) :
    rowsAfter place (some (place a)) (rowsAfter place after l) =
      rowsAfter place (some (place a)) l := by
  have hbehind := (List.mem_filter.mp ha).2
  unfold rowsAfter
  rw [List.filter_filter]
  refine List.filter_congr fun b _ => ?_
  cases after with
  | none => simp
  | some k =>
      have hk : k < place a := by simpa using hbehind
      simp only [Option.all_some]
      by_cases hb : place a < place b
      · simp [hb, hk.trans hb]
      · simp [hb]

end Rows

/-! ## Following the cursors -/

/-- Reading from a cursor on, each page at the cursor that the one before names, until a page
names none. -/
inductive Pages (Reads : Option γ → π → Prop) (next : π → Option γ) : Option γ → List π → Prop
  | last {c : Option γ} {p : π} (hread : Reads c p) (hnext : next p = none) :
      Pages Reads next c [p]
  | more {c : Option γ} {p : π} {c' : γ} {ps : List π} (hread : Reads c p)
      (hnext : next p = some c') (hrest : Pages Reads next (some c') ps) :
      Pages Reads next c (p :: ps)

/-! ## A reader of a sorted list -/

/-- A reader that answers with the rows of a sorted list behind its cursor, a page at a time. The
cursors it meets are those of its rows. -/
structure Paging [LinearOrder κ] (place : α → κ) (l : List α) (limit : ℕ) (cursorOf : α → γ)
    (item : α → β) (Reads : Option γ → π → Prop) (next : π → Option γ) (items : π → List β) :
    Prop where
  sorted : l.Pairwise fun a b => place a < place b
  limit_pos : 0 < limit
  reads : ∀ last : Option α, (∀ a ∈ last, a ∈ l) → ∃ p,
    (∀ q, Reads (last.map cursorOf) q ↔ q = p) ∧
    items p = ((rowsAfter place (last.map place) l).take limit).map item ∧
    next p = if limit < (rowsAfter place (last.map place) l).length then
      (rowsAfter place (last.map place) l)[limit - 1]?.map cursorOf else none

namespace Paging

variable [LinearOrder κ] {place : α → κ} {l : List α} {limit : ℕ} {cursorOf : α → γ}
variable {item : α → β} {Reads : Option γ → π → Prop} {next : π → Option γ} {items : π → List β}
variable {last : Option α} {p : π} {ps : List π}

/-- When rows remain, the next page starts behind the last row of this one. -/
theorem step (h : Paging place l limit cursorOf item Reads next items)
    (hlt : limit < (rowsAfter place (last.map place) l).length) :
    ∃ a ∈ l, (rowsAfter place (last.map place) l)[limit - 1]? = some a ∧
      rowsAfter place (some (place a)) l = (rowsAfter place (last.map place) l).drop limit := by
  have hi : limit - 1 < (rowsAfter place (last.map place) l).length := by omega
  have hmem := List.getElem_mem hi
  have hsorted : (rowsAfter place (last.map place) l).Pairwise fun a b => place a < place b :=
    h.sorted.sublist (rowsAfter_sublist place)
  have hdrop := rowsAfter_getElem place hsorted hi
  rw [rowsAfter_rowsAfter place hmem, Nat.sub_add_cancel h.limit_pos] at hdrop
  exact ⟨_, (rowsAfter_sublist place).subset hmem, List.getElem?_eq_getElem hi, hdrop⟩

/-- Following the cursors from a row on comes to an end. -/
theorem exists_pages_from (h : Paging place l limit cursorOf item Reads next items) {n : ℕ}
    (hlast : ∀ a ∈ last, a ∈ l) (hn : (rowsAfter place (last.map place) l).length ≤ n) :
    ∃ ps, Pages Reads next (last.map cursorOf) ps := by
  induction n using Nat.strong_induction_on generalizing last with
  | _ n ih =>
      obtain ⟨p, hread, -, hnext⟩ := h.reads last hlast
      by_cases hlt : limit < (rowsAfter place (last.map place) l).length
      · obtain ⟨a, ha, hrow, hdrop⟩ := h.step hlt
        rw [if_pos hlt, hrow] at hnext
        have hless : (rowsAfter place (some (place a)) l).length < n := by
          have := h.limit_pos
          rw [hdrop, List.length_drop]
          omega
        have hrow : ∀ b ∈ some a, b ∈ l := fun b hb => (Option.mem_some.mp hb) ▸ ha
        obtain ⟨ps, hps⟩ := ih _ hless hrow le_rfl
        exact ⟨p :: ps, .more ((hread p).mpr rfl) hnext hps⟩
      · rw [if_neg hlt] at hnext
        exact ⟨[p], .last ((hread p).mpr rfl) hnext⟩

/-- Following the cursors from the first page comes to an end. -/
theorem exists_pages (h : Paging place l limit cursorOf item Reads next items) :
    ∃ ps, Pages Reads next none ps :=
  have hlast : ∀ a ∈ (none : Option α), a ∈ l := fun _ ha => absurd ha (Option.not_mem_none _)
  h.exists_pages_from hlast le_rfl

/-- A page that names a cursor names that of its last row, and rows remain behind it. -/
theorem next_eq_some (h : Paging place l limit cursorOf item Reads next items) {c : Option γ}
    {c' : γ} (hc : c = last.map cursorOf) (hlast : ∀ a ∈ last, a ∈ l) (hread : Reads c p)
    (hnext : next p = some c') :
    ∃ a ∈ l, some c' = (some a).map cursorOf ∧ rowsAfter place (some (place a)) l =
      (rowsAfter place (last.map place) l).drop limit := by
  obtain ⟨q, hq, -, hqnext⟩ := h.reads last hlast
  obtain rfl : p = q := (hq p).mp (hc ▸ hread)
  have hlt : limit < (rowsAfter place (last.map place) l).length := by
    by_contra hle
    rw [if_neg hle, hnext] at hqnext
    cases hqnext
  obtain ⟨a, ha, hrow, hdrop⟩ := h.step hlt
  rw [if_pos hlt, hrow, hnext] at hqnext
  exact ⟨a, ha, hqnext, hdrop⟩

/-- The pages from a row on hold the rows that follow it. -/
theorem flatMap_items_from (h : Paging place l limit cursorOf item Reads next items)
    {c : Option γ} (hpages : Pages Reads next c ps) (hc : c = last.map cursorOf)
    (hlast : ∀ a ∈ last, a ∈ l) :
    ps.flatMap items = (rowsAfter place (last.map place) l).map item := by
  induction hpages generalizing last with
  | @last c p hread hnext =>
      obtain ⟨q, hq, hitems, hqnext⟩ := h.reads last hlast
      obtain rfl : p = q := (hq p).mp (hc ▸ hread)
      have hle : ¬ limit < (rowsAfter place (last.map place) l).length := by
        intro hlt
        obtain ⟨a, -, hrow, -⟩ := h.step hlt
        rw [if_pos hlt, hrow, hnext] at hqnext
        cases hqnext
      rw [List.flatMap_singleton, hitems, List.take_of_length_le (Nat.le_of_not_lt hle)]
  | @more c p c' ps hread hnext _ ih =>
      obtain ⟨q, hq, hitems, -⟩ := h.reads last hlast
      obtain rfl : p = q := (hq p).mp (hc ▸ hread)
      obtain ⟨a, ha, hc', hdrop⟩ := h.next_eq_some hc hlast hread hnext
      have hrow : ∀ b ∈ some a, b ∈ l := fun b hb => (Option.mem_some.mp hb) ▸ ha
      have hrest := ih hc' hrow
      rw [List.flatMap_cons, hitems, hrest, Option.map_some, hdrop, ← List.map_append,
        List.take_append_drop]

/-- The pages together are the list. -/
theorem flatMap_items (h : Paging place l limit cursorOf item Reads next items)
    (hpages : Pages Reads next none ps) : ps.flatMap items = l.map item := by
  have hlast : ∀ a ∈ (none : Option α), a ∈ l := fun _ ha => absurd ha (Option.not_mem_none _)
  have hall := h.flatMap_items_from hpages rfl hlast
  rwa [Option.map_none, rowsAfter_none] at hall

/-- Every page was read at the start or behind a row. -/
theorem exists_last (h : Paging place l limit cursorOf item Reads next items) {c : Option γ}
    (hpages : Pages Reads next c ps) (hc : c = last.map cursorOf) (hlast : ∀ a ∈ last, a ∈ l) :
    ∀ p ∈ ps, ∃ last : Option α, (∀ a ∈ last, a ∈ l) ∧ Reads (last.map cursorOf) p := by
  induction hpages generalizing last with
  | @last c p hread hnext =>
      intro q hq
      obtain rfl := List.mem_singleton.mp hq
      exact ⟨last, hlast, hc ▸ hread⟩
  | @more c p c' ps hread hnext _ ih =>
      intro q hq
      rcases List.mem_cons.mp hq with rfl | hq
      · exact ⟨last, hlast, hc ▸ hread⟩
      · obtain ⟨a, ha, hc', -⟩ := h.next_eq_some hc hlast hread hnext
        have hrow : ∀ b ∈ some a, b ∈ l := fun b hb => (Option.mem_some.mp hb) ▸ ha
        exact ih hc' hrow q hq

end Paging

end Ordering
