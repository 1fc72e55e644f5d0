import Mathlib.Data.List.Nodup
import Mathlib.Logic.Function.Basic

/-!
# Filling places in turn

Each place has a list of items that may take it, and an item takes at most one place. The places
have their turns in order: a place without an item gets its only candidate that is still free, and
stays empty when it has several. The main result says when a second round leaves everything as the
first one left it.
-/

namespace Ordering

variable {ρ ι : Type} {hints : ρ → List ι} {s t u : ι → Option ρ} {r q : ρ} {i : ι} {rs : List ρ}

/-- Whether some item has a place. -/
def Held (s : ι → Option ρ) (r : ρ) : Prop := ∃ i, s i = some r

/-- Every item that has a place keeps it. -/
def Extends (s t : ι → Option ρ) : Prop := ∀ i r, s i = some r → t i = some r

namespace Extends

theorem refl : Extends s s := fun _ _ h => h

theorem trans (h : Extends s t) (h' : Extends t u) : Extends s u := fun i r hi => h' i r (h i r hi)

theorem antisymm (h : Extends s t) (h' : Extends t s) : s = t := by
  funext i
  cases hs : s i with
  | some r => exact (h i r hs).symm
  | none =>
      cases ht : t i with
      | none => rfl
      | some r =>
          rw [h' i r ht] at hs
          cases hs

theorem held (h : Extends s t) (hr : Held s r) : Held t r := by
  obtain ⟨i, hi⟩ := hr
  exact ⟨i, h i r hi⟩

end Extends

variable [DecidableEq ρ]

/-- The items that may take a place: those without one, and those that have it already. -/
def takers (hints : ρ → List ι) (s : ι → Option ρ) (r : ρ) : List ι :=
  (hints r).filter fun i => s i = none ∨ s i = some r

theorem takers_length_le : (takers hints s r).length ≤ (hints r).length := List.length_filter_le _ _

/-- A place that stays empty has fewer takers the more items have places. -/
theorem Extends.takers_sublist (h : Extends s t) (hr : ¬ Held t r) :
    (takers hints t r).Sublist (takers hints s r) := by
  unfold takers
  refine List.monotone_filter_right (hints r) fun i hi => ?_
  rw [decide_eq_true_eq] at hi ⊢
  rcases hi with hnone | hheld
  · cases hs : s i with
    | none => exact .inl rfl
    | some q =>
        rw [h i q hs] at hnone
        cases hnone
  · exact absurd ⟨i, hheld⟩ hr

/-- The only taker of an empty place has no place. -/
theorem free_of_single (hr : ¬ Held s r) (h : takers hints s r = [i]) : s i = none := by
  have hmem : i ∈ takers hints s r := by
    rw [h]
    exact List.mem_singleton.mpr rfl
  rcases of_decide_eq_true (List.mem_filter.mp hmem).2 with hnone | hheld
  · exact hnone
  · exact absurd ⟨i, hheld⟩ hr

variable [DecidableEq ι]

open Classical in
/-- The turn of one place. -/
noncomputable def turn (hints : ρ → List ι) (s : ι → Option ρ) (r : ρ) : ι → Option ρ :=
  if Held s r then s
  else match takers hints s r with
    | [i] => Function.update s i (some r)
    | _ => s

/-- The turns of places in order. -/
noncomputable def turns (hints : ρ → List ι) (s : ι → Option ρ) (rs : List ρ) : ι → Option ρ :=
  rs.foldl (turn hints) s

/-! ## One turn -/

theorem turn_of_held (h : Held s r) : turn hints s r = s := if_pos h

theorem turn_of_ne (h : (takers hints s r).length ≠ 1) : turn hints s r = s := by
  unfold turn
  split
  · rfl
  · split
    · rename_i hone
      rw [hone] at h
      exact absurd rfl h
    · rfl

theorem turn_of_single (hr : ¬ Held s r) (h : takers hints s r = [i]) :
    turn hints s r = Function.update s i (some r) := by
  unfold turn
  rw [if_neg hr, h]

/-- A turn either does nothing or gives the place to its only taker. -/
theorem turn_cases (hints : ρ → List ι) (s : ι → Option ρ) (r : ρ) :
    turn hints s r = s ∨ ∃ i, ¬ Held s r ∧ takers hints s r = [i] ∧ s i = none ∧
      turn hints s r = Function.update s i (some r) := by
  by_cases hr : Held s r
  · exact .inl (turn_of_held hr)
  · by_cases hone : (takers hints s r).length = 1
    · obtain ⟨i, hi⟩ := List.length_eq_one_iff.mp hone
      exact .inr ⟨i, hr, hi, free_of_single hr hi, turn_of_single hr hi⟩
    · exact .inl (turn_of_ne hone)

theorem extends_turn : Extends s (turn hints s r) := by
  obtain h | ⟨i, -, -, hfree, h⟩ := turn_cases hints s r
  · rw [h]
    exact Extends.refl
  · rw [h]
    intro j q hj
    have hne : j ≠ i := by
      rintro rfl
      rw [hfree] at hj
      cases hj
    rwa [Function.update_of_ne hne]

/-- A turn gives away no place but its own. -/
theorem held_turn (h : Held (turn hints s r) q) : Held s q ∨ q = r := by
  obtain heq | ⟨i, -, -, -, heq⟩ := turn_cases hints s r
  · rw [heq] at h
    exact .inl h
  · rw [heq] at h
    obtain ⟨j, hj⟩ := h
    by_cases hji : j = i
    · subst hji
      rw [Function.update_self] at hj
      exact .inr (Option.some.inj hj).symm
    · rw [Function.update_of_ne hji] at hj
      exact .inl ⟨j, hj⟩

/-- A turn does nothing exactly when its place has an item, or not one taker. -/
theorem turn_eq_self_iff :
    turn hints s r = s ↔ Held s r ∨ (takers hints s r).length ≠ 1 := by
  constructor
  · intro h
    by_contra hnot
    push Not at hnot
    obtain ⟨hr, hone⟩ := hnot
    obtain ⟨i, hi⟩ := List.length_eq_one_iff.mp hone
    refine hr ⟨i, ?_⟩
    rw [← h, turn_of_single hr hi, Function.update_self]
  · rintro (h | h)
    · exact turn_of_held h
    · exact turn_of_ne h

/-! ## All turns -/

theorem extends_turns : Extends s (turns hints s rs) := by
  induction rs generalizing s with
  | nil => exact Extends.refl
  | cons r rs ih => exact extends_turn.trans ih

theorem turns_append {rs' : List ρ} :
    turns hints s (rs ++ rs') = turns hints (turns hints s rs) rs' := List.foldl_append

/-- The turns give away no places but their own. -/
theorem held_turns (h : Held (turns hints s rs) q) : Held s q ∨ q ∈ rs := by
  induction rs generalizing s with
  | nil => exact .inl h
  | cons r rs ih =>
      rcases ih h with h | h
      · rcases held_turn h with h | rfl
        · exact .inl h
        · exact .inr List.mem_cons_self
      · exact .inr (List.mem_cons_of_mem r h)

/-- The turns do nothing exactly when none of them does. -/
theorem turns_eq_self_iff : turns hints s rs = s ↔ ∀ r ∈ rs, turn hints s r = s := by
  induction rs generalizing s with
  | nil =>
      constructor
      · intro _ r hr
        cases hr
      · intro _
        rfl
  | cons r rs ih =>
      constructor
      · intro h
        have hfirst : turn hints s r = s := by
          have hback : Extends (turn hints s r) s := by
            have hrest : Extends (turn hints s r) (turns hints s (r :: rs)) := extends_turns
            rwa [h] at hrest
          exact hback.antisymm extends_turn
        have hrest : turns hints s rs = s := by
          have hcons : turns hints (turn hints s r) rs = s := h
          rwa [hfirst] at hcons
        intro q hq
        rcases List.mem_cons.mp hq with rfl | hq
        · exact hfirst
        · exact ih.mp hrest q hq
      · intro h
        have hcons : turns hints s (r :: rs) = turns hints (turn hints s r) rs := rfl
        rw [hcons, h r List.mem_cons_self]
        exact ih.mpr fun q hq => h q (List.mem_cons_of_mem r hq)

variable {earlier later : List ρ}

/-- A turn that does nothing can be left out. -/
theorem turns_skip (h : turn hints (turns hints s earlier) r = turns hints s earlier) :
    turns hints s (earlier ++ r :: later) = turns hints (turns hints s earlier) later := by
  rw [turns_append]
  exact congrArg (fun t => turns hints t later) h

/-- A place with several takers at its turn stays empty. -/
theorem not_held_of_many (hrs : (earlier ++ r :: later).Nodup) (hempty : ¬ Held s r)
    (hmany : 2 ≤ (takers hints (turns hints s earlier) r).length) :
    ¬ Held (turns hints s (earlier ++ r :: later)) r := by
  obtain ⟨-, htail, hdisjoint⟩ := List.nodup_append.mp hrs
  rw [turns_skip (turn_of_ne (by omega))]
  intro hheld
  rcases held_turns hheld with hheld | hlater
  · rcases held_turns hheld with hheld | hearlier
    · exact hempty hheld
    · exact hdisjoint r hearlier r List.mem_cons_self rfl
  · exact (List.nodup_cons.mp htail).1 hlater

/-! ## A second round -/

/-- A place that is empty and has several takers at its turn, all but one of which take later
places. -/
def LeftAlone (hints : ρ → List ι) (s : ι → Option ρ) (rs : List ρ) (r : ρ) : Prop :=
  ∃ earlier later, rs = earlier ++ r :: later ∧ ¬ Held (turns hints s earlier) r ∧
    2 ≤ (takers hints (turns hints s earlier) r).length ∧
    (takers hints (turns hints (turns hints s earlier) later) r).length = 1

/-- A place is left alone exactly when the first round leaves it empty with one taker. -/
theorem leftAlone_iff (hrs : rs.Nodup) (hr : r ∈ rs) : LeftAlone hints s rs r ↔
    ¬ Held (turns hints s rs) r ∧ (takers hints (turns hints s rs) r).length = 1 := by
  constructor
  · rintro ⟨earlier, later, rfl, hempty, hmany, hone⟩
    rw [turns_skip (turn_of_ne (by omega))]
    refine ⟨fun hheld => ?_, hone⟩
    rcases held_turns hheld with hheld | hlater
    · exact hempty hheld
    · exact (List.nodup_cons.mp (List.nodup_append.mp hrs).2.1).1 hlater
  · rintro ⟨hempty, hone⟩
    obtain ⟨earlier, later, rfl⟩ := List.append_of_mem hr
    rw [turns_append] at hempty
    have hbefore : ¬ Held (turns hints s earlier) r :=
      fun hheld => hempty ((extends_turn.trans extends_turns).held hheld)
    have hskip : turn hints (turns hints s earlier) r = turns hints s earlier := by
      obtain heq | ⟨i, -, -, -, heq⟩ := turn_cases hints (turns hints s earlier) r
      · exact heq
      · have hheld : Held (turn hints (turns hints s earlier) r) r :=
          ⟨i, by rw [heq, Function.update_self]⟩
        exact absurd (Extends.held extends_turns hheld) hempty
    have hnot : (takers hints (turns hints s earlier) r).length ≠ 1 := by
      rcases turn_eq_self_iff.mp hskip with hheld | hnot
      · exact absurd hheld hbefore
      · exact hnot
    have hsub : (takers hints (turns hints (turns hints s earlier) (r :: later)) r).Sublist
        (takers hints (turns hints s earlier) r) := extends_turns.takers_sublist hempty
    have hlength := hsub.length_le
    rw [← turns_append] at hlength
    refine ⟨earlier, later, rfl, hbefore, by omega, ?_⟩
    rwa [turns_skip hskip] at hone

/-- A second round changes nothing exactly when no place is left alone by the first. -/
theorem turns_turns_iff (hrs : rs.Nodup) :
    turns hints (turns hints s rs) rs = turns hints s rs ↔ ∀ r ∈ rs, ¬ LeftAlone hints s rs r := by
  rw [turns_eq_self_iff]
  refine forall₂_congr fun r hr => ?_
  rw [turn_eq_self_iff, leftAlone_iff hrs hr]
  tauto

end Ordering
