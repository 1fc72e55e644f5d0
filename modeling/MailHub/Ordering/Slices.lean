import Mathlib.Data.List.Basic
import Mathlib.Data.Nat.Notation
import Mathlib.Tactic.Common

/-!
# Slices of a list

A list that is too long for one step is worked on slice by slice. The slices are the list cut into
pieces of one size; in an ascending list whatever comes in a later slice is not below the last
element of an earlier one.
-/

namespace Ordering

variable {α : Type*} {n fuel : ℕ} {l : List α}

/-- At most `fuel` slices of size `n`. -/
def slicesWithin (n : ℕ) : ℕ → List α → List (List α)
  | 0, _ => []
  | fuel + 1, l => if l.isEmpty then [] else l.take n :: slicesWithin n fuel (l.drop n)

/-- A list cut into slices of size `n`; the last slice may be shorter. -/
def slices (n : ℕ) (l : List α) : List (List α) := slicesWithin n l.length l

theorem flatten_slicesWithin (hn : 0 < n) (hfuel : l.length ≤ fuel) :
    (slicesWithin n fuel l).flatten = l := by
  induction fuel generalizing l with
  | zero =>
      have hnil : l = [] := List.length_eq_zero_iff.mp (Nat.le_zero.mp hfuel)
      simp [slicesWithin, hnil]
  | succ fuel ih =>
      by_cases hl : l = []
      · simp [slicesWithin, hl]
      · have hpos : 0 < l.length := List.length_pos_iff.mpr hl
        have hrest : (l.drop n).length ≤ fuel := by
          rw [List.length_drop]
          omega
        have hfalse : l.isEmpty = false := by simpa using hl
        rw [slicesWithin, hfalse, if_neg Bool.false_ne_true, List.flatten_cons, ih hrest,
          List.take_append_drop]

/-- The slices are the whole list. -/
theorem flatten_slices (hn : 0 < n) (l : List α) : (slices n l).flatten = l :=
  flatten_slicesWithin hn (Nat.le_refl _)

/-- No slice is empty. -/
theorem ne_nil_of_mem_slices (hn : 0 < n) {slice : List α} (h : slice ∈ slices n l) :
    slice ≠ [] := by
  have hwithin : ∀ fuel (l : List α), slice ∈ slicesWithin n fuel l → slice ≠ [] := by
    intro fuel
    induction fuel with
    | zero => simp [slicesWithin]
    | succ fuel ih =>
        intro l hmem
        rw [slicesWithin] at hmem
        split at hmem
        · simp at hmem
        next hl =>
          rcases List.mem_cons.mp hmem with rfl | hmem
          · intro htake
            rcases List.take_eq_nil_iff.mp htake with hzero | hnil
            · omega
            · simp [hnil] at hl
          · exact ih _ hmem
  exact hwithin _ l h

/-- In an ascending list that was cut, what stands behind a slice is not below its last element. -/
theorem last_le_of_behind {slice : List ℕ} {rest : List (List ℕ)} {k : ℕ}
    (hsorted : (slice :: rest).flatten.Pairwise (· ≤ ·)) (hk : k ∈ rest.flatten)
    (hslice : slice ≠ []) : slice.getLast hslice ≤ k := by
  rw [List.flatten_cons] at hsorted
  exact (List.pairwise_append.mp hsorted).2.2 _ (List.getLast_mem hslice) k hk

end Ordering
