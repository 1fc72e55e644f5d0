import Mathlib.Data.List.Perm.Subperm
import Mathlib.Data.Nat.Notation

/-!
# Windows over a list of times

How many times of a list fall within one window: in a list from the newest to the oldest the ones
that share a window with its newest are a prefix of the rest, so a window is found by counting
forward from each time.
-/

namespace Ordering

variable {window last : ℕ} {ts earlier : List ℕ}

/-- All the times fall within one window of one another. -/
def Within (window : ℕ) (ts : List ℕ) : Prop := ∀ a ∈ ts, ∀ b ∈ ts, a ≤ b + window

/-- The times that fall within a window before a time are not older than the window. -/
theorem takeWhile_eq_filter (h : (last :: earlier).Pairwise (· ≥ ·)) :
    (earlier.takeWhile fun t => last - t ≤ window) =
      earlier.filter fun t => last - t ≤ window := by
  induction earlier with
  | nil => rfl
  | cons a earlier ih =>
      obtain ⟨hlast, htail⟩ := List.pairwise_cons.mp h
      obtain ⟨ha, hearlier⟩ := List.pairwise_cons.mp htail
      by_cases hfits : last - a ≤ window
      · rw [List.takeWhile_cons_of_pos (by simpa using hfits),
          List.filter_cons_of_pos (by simpa using hfits), ih]
        exact List.pairwise_cons.mpr ⟨fun b hb => hlast b (List.mem_cons_of_mem a hb), hearlier⟩
      · have hnone : ∀ b ∈ earlier, ¬ last - b ≤ window := by
          intro b hb
          have hba : b ≤ a := ha b hb
          omega
        rw [List.takeWhile_cons_of_neg (by simpa using hfits),
          List.filter_cons_of_neg (by simpa using hfits)]
        exact (List.filter_eq_nil_iff.mpr fun b hb => by simpa using hnone b hb).symm

/-- The newest time with the times of its window. -/
theorem within_window (h : (last :: earlier).Pairwise (· ≥ ·)) :
    Within window (last :: earlier.takeWhile fun t => last - t ≤ window) := by
  have hbounds : ∀ a ∈ last :: earlier.takeWhile fun t => last - t ≤ window,
      a ≤ last ∧ last ≤ a + window := by
    intro a ha
    rcases List.mem_cons.mp ha with rfl | ha
    · exact ⟨Nat.le_refl a, Nat.le_add_right a window⟩
    · have hold : a ≤ last :=
        (List.pairwise_cons.mp h).1 a ((List.takeWhile_prefix _).subset ha)
      have hfits : last - a ≤ window := by
        rw [takeWhile_eq_filter h] at ha
        simpa using (List.mem_filter.mp ha).2
      omega
  intro a ha b hb
  have := hbounds a ha
  have := hbounds b hb
  omega

/-- Times of one window with the newest time among them are in the window of the newest. -/
theorem length_le_window (h : (last :: earlier).Pairwise (· ≥ ·)) (hsub : ts.Subperm (last :: earlier))
    (hwithin : Within window ts) (hmem : last ∈ ts) :
    ts.length ≤ 1 + (earlier.takeWhile fun t => last - t ≤ window).length := by
  have hall : ∀ t ∈ ts, last - t ≤ window := by
    intro t ht
    have := hwithin last hmem t ht
    omega
  have hself : ts.filter (fun t => last - t ≤ window) = ts :=
    List.filter_eq_self.mpr fun t ht => by simpa using hall t ht
  have hfilter : ts.Subperm ((last :: earlier).filter fun t => last - t ≤ window) := by
    rw [← hself]
    exact hsub.filter _
  have hlength := hfilter.length_le
  rw [List.filter_cons_of_pos (by simp), ← takeWhile_eq_filter h, List.length_cons] at hlength
  omega

/-- Times without the newest one are times of the rest. -/
theorem subperm_of_not_mem (hsub : ts.Subperm (last :: earlier)) (hmem : last ∉ ts) :
    ts.Subperm earlier := by
  have herase := hsub.erase last
  rwa [List.erase_of_not_mem hmem, List.erase_cons_head] at herase

end Ordering
