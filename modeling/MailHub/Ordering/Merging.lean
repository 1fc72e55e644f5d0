import MailHub.Ordering.Pages
import Mathlib.Data.List.Perm.Subperm

/-!
# Merging the first rows

The first rows of several lists together are found in the first rows of each: sorting and cutting
the lists one by one, and then all that is left, gives what sorting and cutting everything gives.
-/

namespace Ordering

variable {α κ : Type} {l m : List α} {a : α} {n : ℕ}

/-! ## Cutting a sublist -/

/-- A part that has the first rows of a list starts with them. -/
theorem take_eq_of_sublist (h : l.Sublist m) (hm : m.Nodup) (hfirst : ∀ a ∈ m.take n, a ∈ l) :
    l.take n = m.take n := by
  induction h generalizing n with
  | slnil => rfl
  | cons a h ih =>
      cases n with
      | zero => rfl
      | succ n =>
          obtain ⟨hmem, -⟩ := List.nodup_cons.mp hm
          exact absurd (h.subset (hfirst a (by simp))) hmem
  | cons_cons a h ih =>
      cases n with
      | zero => rfl
      | succ n =>
          obtain ⟨hmem, hm⟩ := List.nodup_cons.mp hm
          rw [List.take_succ_cons, List.take_succ_cons, ih hm fun b hb => ?_]
          have hb' := hfirst b (List.mem_cons_of_mem a hb)
          rcases List.mem_cons.mp hb' with rfl | hb'
          · exact absurd (List.mem_of_mem_take hb) hmem
          · exact hb'

/-- A first row of a list is a first row of every part that has it. -/
theorem mem_take_of_sublist (h : l.Sublist m) (hm : m.Nodup) (ha : a ∈ m.take n) (hl : a ∈ l) :
    a ∈ l.take n := by
  induction h generalizing n with
  | slnil => exact ha
  | @cons l m b h ih =>
      cases n with
      | zero => cases ha
      | succ n =>
          obtain ⟨hmem, hm⟩ := List.nodup_cons.mp hm
          rcases List.mem_cons.mp ha with rfl | ha
          · exact absurd (h.subset hl) hmem
          · exact List.take_subset_take_left l (Nat.le_succ n) (ih hm ha hl)
  | cons_cons b h ih =>
      cases n with
      | zero => cases ha
      | succ n =>
          obtain ⟨hmem, hm⟩ := List.nodup_cons.mp hm
          rcases List.mem_cons.mp ha with rfl | hrest
          · exact List.mem_cons_self
          · rcases List.mem_cons.mp hl with rfl | hl
            · exact absurd (List.mem_of_mem_take hrest) hmem
            · exact List.mem_cons_of_mem b (ih hm hrest hl)

/-! ## Sorting and cutting -/

variable {place : α → κ}

/-- No two rows of a list share a place. -/
def Placed (place : α → κ) (l : List α) : Prop := l.Pairwise fun a b => place a ≠ place b

theorem Placed.nodup (h : Placed place l) : l.Nodup := by
  refine h.imp fun hne heq => hne ?_
  rw [heq]

theorem Placed.of_subperm (h : Placed place m) (hsub : l.Subperm m) : Placed place l := by
  obtain ⟨l', hperm, hsub⟩ := hsub
  exact hperm.pairwise (h.sublist hsub) fun hne heq => hne heq.symm

variable [LinearOrder κ]

/-- Rows in the order of their places. -/
def sortBy (place : α → κ) (l : List α) : List α := l.insertionSort fun a b => place a ≤ place b

@[simp] theorem mem_sortBy : a ∈ sortBy place l ↔ a ∈ l := List.mem_insertionSort _

theorem sortBy_perm : (sortBy place l).Perm l := List.perm_insertionSort _ l

theorem Placed.sorted (h : Placed place l) :
    (sortBy place l).Pairwise fun a b => place a < place b := by
  have hplaced : Placed place (sortBy place l) := h.of_subperm sortBy_perm.subperm
  exact (hplaced.and (pairwise_insertionSort_le place l)).imp fun h => lt_of_le_of_ne h.2 h.1

/-- Sorting a part of the rows gives a part of all rows sorted. -/
theorem Placed.sortBy_sublist (h : Placed place m) (hsub : l.Subperm m) :
    (sortBy place l).Sublist (sortBy place m) := by
  have hsubperm : (sortBy place l).Subperm (sortBy place m) :=
    (sortBy_perm.subperm.trans hsub).trans sortBy_perm.symm.subperm
  have hantisymm : Std.Antisymm fun a b : α => place a < place b :=
    ⟨fun a b hab hba => absurd (hab.trans hba) (lt_irrefl _)⟩
  exact List.sublist_of_subperm_of_pairwise hsubperm (h.of_subperm hsub).sorted h.sorted

/-- The first rows of all lists are the first rows of what is left when each list is sorted and cut
no shorter. -/
theorem take_sortBy_flatMap {ls : List (List α)} {k : ℕ} (h : Placed place ls.flatten)
    (hk : n ≤ k) :
    (sortBy place (ls.flatMap fun l => (sortBy place l).take k)).take n =
      (sortBy place ls.flatten).take n := by
  have hpart : (ls.flatMap fun l => (sortBy place l).take k).Subperm ls.flatten := by
    clear h
    induction ls with
    | nil => exact List.Subperm.refl _
    | cons l ls ih =>
        have hl : ((sortBy place l).take k).Subperm l :=
          (List.take_sublist k _).subperm.trans sortBy_perm.subperm
        rw [List.flatMap_cons, List.flatten_cons]
        exact hl.append ih
  refine take_eq_of_sublist (h.sortBy_sublist hpart) h.sorted.nodup fun a ha => ?_
  obtain ⟨l, hl, hal⟩ := List.mem_flatten.mp (mem_sortBy.mp (List.mem_of_mem_take ha))
  have hsub : (sortBy place l).Sublist (sortBy place ls.flatten) :=
    h.sortBy_sublist (List.sublist_flatten_of_mem hl).subperm
  have hfirst := mem_take_of_sublist hsub h.sorted.nodup ha (mem_sortBy.mpr hal)
  exact mem_sortBy.mpr (List.mem_flatMap.mpr
    ⟨l, hl, List.take_subset_take_left _ hk hfirst⟩)

/-- Two orders that agree on the rows sort them alike. -/
theorem insertionSort_eq_sortBy {before : α → α → Prop} [DecidableRel before]
    (h : ∀ a ∈ l, ∀ b ∈ l, before a b ↔ place a ≤ place b) :
    l.insertionSort before = sortBy place l := by
  induction l with
  | nil => rfl
  | cons a l ih =>
      have hrest : l.insertionSort before = sortBy place l :=
        ih fun b hb c hc => h b (List.mem_cons_of_mem a hb) c (List.mem_cons_of_mem a hc)
      have hinsert : ∀ m : List α, (∀ b ∈ m, b ∈ l) →
          m.orderedInsert before a = m.orderedInsert (fun a b => place a ≤ place b) a := by
        intro m hm
        induction m with
        | nil => rfl
        | cons b m ih =>
            have hiff := h a List.mem_cons_self b (List.mem_cons_of_mem a (hm b List.mem_cons_self))
            rw [List.orderedInsert, List.orderedInsert,
              ih fun c hc => hm c (List.mem_cons_of_mem b hc)]
            exact if_congr hiff rfl rfl
      unfold sortBy at hrest ⊢
      rw [List.insertionSort_cons, List.insertionSort_cons, hrest]
      exact hinsert _ fun b hb => (List.mem_insertionSort _).mp hb

end Ordering
