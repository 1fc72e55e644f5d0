import Mathlib.Data.List.Sort
import Mathlib.Data.List.Nodup

/-!
# The order of a list

One element precedes another when both occur in the list in that order. In a list without
repetitions this is a strict order, and a list that grows at its end never changes it.
-/

namespace Ordering

variable {α : Type*} {l m : List α} {x y z : α}

/-- `x` occurs in the list before `y`. -/
def Precedes (l : List α) (x y : α) : Prop := List.Sublist [x, y] l

namespace Precedes

theorem left_mem (h : Precedes l x y) : x ∈ l := h.subset (by simp)

theorem right_mem (h : Precedes l x y) : y ∈ l := h.subset (by simp)

/-- An order is kept when the list grows. -/
theorem append (h : Precedes l x y) : Precedes (l ++ m) x y :=
  h.trans (List.sublist_append_left l m)

/-- What holds pairwise holds between an element and what it precedes. -/
theorem pairwise {R : α → α → Prop} (h : Precedes l x y) (hl : l.Pairwise R) : R x y :=
  List.pairwise_iff_forall_sublist.mp hl h

theorem ne (h : Precedes l x y) (hl : l.Nodup) : x ≠ y := h.pairwise hl

/-- What precedes an element at the front comes from the front. -/
theorem of_append (h : Precedes (l ++ m) x y) (hl : (l ++ m).Nodup) (hy : y ∈ l) :
    Precedes l x y := by
  obtain ⟨u, v, huv, hu, hv⟩ := List.sublist_append_iff.mp h
  have hdisjoint := List.disjoint_of_nodup_append hl
  match v with
  | [] =>
      obtain rfl : [x, y] = u := by simpa using huv
      exact hu
  | b :: v =>
      have hlast : y ∈ b :: v := by
        have hsuffix : (b :: v) <:+ [x, y] := ⟨u, huv.symm⟩
        have hmem := List.getLast_mem (List.cons_ne_nil b v)
        rwa [hsuffix.getLast (List.cons_ne_nil b v), List.getLast_cons_cons,
          List.getLast_singleton] at hmem
      exact absurd (hv.subset hlast) (hdisjoint hy)

/-- Of two elements one precedes the other. -/
theorem total (hx : x ∈ l) (hy : y ∈ l) (hne : x ≠ y) : Precedes l x y ∨ Precedes l y x := by
  obtain ⟨u, v, rfl⟩ := List.append_of_mem hx
  rcases List.mem_append.mp hy with hu | hv
  · right
    have hsingle : List.Sublist [y] u := List.singleton_sublist.mpr hu
    exact hsingle.append (List.singleton_sublist.mpr List.mem_cons_self)
  · left
    have htail : y ∈ v := by simpa [Ne.symm hne] using hv
    have hpair : List.Sublist [x, y] (x :: v) := (List.singleton_sublist.mpr htail).cons_cons x
    exact hpair.trans (List.sublist_append_right u _)

/-- Two elements of a list without repetitions do not precede each other. -/
theorem asymm (h : Precedes l x y) (hl : l.Nodup) : ¬ Precedes l y x := by
  obtain ⟨u, v, rfl⟩ := List.append_of_mem h.left_mem
  intro h'
  have hmem : y ∈ u ∨ y ∈ x :: v := List.mem_append.mp h.right_mem
  have hnodup : (x :: v).Nodup := (List.nodup_append.mp hl).2.1
  have hxu : x ∉ u := fun hx => List.disjoint_of_nodup_append hl hx List.mem_cons_self
  rcases hmem with hu | hv
  · -- then the first list would hold x as well
    exact hxu (h.of_append hl hu).left_mem
  · have hyu : y ∉ u := fun hy => List.disjoint_of_nodup_append hl hy hv
    have hyx : Precedes (x :: v) y x := by
      obtain ⟨p, q, hpq, hp, hq⟩ := List.sublist_append_iff.mp h'
      match p with
      | [] =>
          obtain rfl : [y, x] = q := by simpa using hpq
          exact hq
      | b :: p =>
          obtain rfl : y = b := by simpa using (List.cons.inj hpq).1
          exact absurd (hp.subset List.mem_cons_self) hyu
    cases hyx with
    | cons _ hsub => exact (List.nodup_cons.mp hnodup).1 (hsub.subset (by simp))
    | cons_cons _ hsub => exact (List.nodup_cons.mp hnodup).1 (hsub.subset (by simp))

end Precedes

/-- In a sorted list whatever does not sort before an element comes after it. -/
theorem mem_front_of_sorted {R : α → α → Prop} {u v : List α} {a b : α}
    (hl : (u ++ a :: v).Pairwise R) (hb : b ∈ u ++ a :: v) (hne : b ≠ a) (hba : ¬ R a b) :
    b ∈ u := by
  rcases List.mem_append.mp hb with hu | hv
  · exact hu
  · have htail : b ∈ v := by simpa [hne] using hv
    exact absurd (List.rel_of_pairwise_cons (List.pairwise_append.mp hl).2.1 htail) hba

/-- What some element satisfies a last element satisfies. -/
theorem exists_last {p : α → Bool} (h : ∃ a ∈ l, p a = true) :
    ∃ u a v, l = u ++ a :: v ∧ p a = true ∧ ∀ b ∈ v, p b = false := by
  induction l with
  | nil => simp at h
  | cons b l ih =>
      by_cases hl : ∃ a ∈ l, p a = true
      · obtain ⟨u, a, v, rfl, ha, hv⟩ := ih hl
        exact ⟨b :: u, a, v, rfl, ha, hv⟩
      · obtain ⟨a, ha, hpa⟩ := h
        rcases List.mem_cons.mp ha with rfl | ha
        · exact ⟨[], a, l, rfl, hpa, fun b hb => by simpa using fun hpb => hl ⟨b, hb, hpb⟩⟩
        · exact absurd ⟨a, ha, hpa⟩ hl

end Ordering
