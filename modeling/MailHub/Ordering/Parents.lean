import Mathlib.Data.Nat.Find
import Mathlib.Data.List.Basic
import Mathlib.Logic.Function.Basic
import Mathlib.Order.Basic

/-!
# Parents and chains

Every element has at most one parent. The elements above an element form its chain, and there is no
cycle when nothing is above itself. The main results say when a new parent closes a cycle, when
merging two elements does, and what a bounded walk along the chain of an element finds.
-/

namespace Ordering

variable {α : Type} {parent parent' : α → Option α} {a b c r s : α} {m n : ℕ}

/-! ## Chains -/

/-- The element `n` steps above an element. -/
def ancestor (parent : α → Option α) : ℕ → α → Option α
  | 0, a => some a
  | n + 1, a => (parent a).bind (ancestor parent n)

/-- The element `b` is somewhere above `a`. -/
def Above (parent : α → Option α) (b a : α) : Prop := ∃ n, ancestor parent (n + 1) a = some b

/-- Nothing is above itself. -/
def Acyclic (parent : α → Option α) : Prop := ∀ a, ¬ Above parent a a

@[simp] theorem ancestor_zero : ancestor parent 0 a = some a := rfl

theorem ancestor_succ : ancestor parent (n + 1) a = (parent a).bind (ancestor parent n) := rfl

theorem ancestor_add (m n : ℕ) (a : α) :
    ancestor parent (m + n) a = (ancestor parent m a).bind (ancestor parent n) := by
  induction m generalizing a with
  | zero => rw [Nat.zero_add, ancestor_zero, Option.bind_some]
  | succ m ih =>
      rw [Nat.add_right_comm, ancestor_succ, ancestor_succ]
      cases parent a with
      | none => rfl
      | some b => exact ih b

theorem ancestor_add_of_eq_some (h : ancestor parent m a = some b) :
    ancestor parent (m + n) a = ancestor parent n b := by
  rw [ancestor_add, h, Option.bind_some]

theorem ancestor_succ_of_eq_some (h : parent a = some b) :
    ancestor parent (n + 1) a = ancestor parent n b := by
  rw [ancestor_succ, h, Option.bind_some]

theorem Above.of_parent (h : parent a = some b) : Above parent b a :=
  ⟨0, by rw [ancestor_succ_of_eq_some h, ancestor_zero]⟩

theorem Above.trans (h : Above parent b a) (h' : Above parent c b) : Above parent c a := by
  obtain ⟨m, hm⟩ := h
  obtain ⟨n, hn⟩ := h'
  refine ⟨m + 1 + n, ?_⟩
  rw [Nat.add_assoc, ancestor_add_of_eq_some hm, hn]

theorem Above.of_ancestor (hn : 0 < n) (h : ancestor parent n a = some b) : Above parent b a := by
  obtain ⟨m, rfl⟩ : ∃ m, n = m + 1 := ⟨n - 1, by omega⟩
  exact ⟨m, h⟩

/-- Without a cycle an element stands at one height above another. -/
theorem Acyclic.height_unique (h : Acyclic parent) (hm : ancestor parent m a = some b)
    (hn : ancestor parent n a = some b) : m = n := by
  have hne : ∀ {m n}, m < n → ancestor parent m a = some b → ancestor parent n a = some b →
      False := by
    intro m n hlt hm hn
    obtain ⟨k, rfl⟩ : ∃ k, n = m + (k + 1) := ⟨n - m - 1, by omega⟩
    rw [ancestor_add_of_eq_some hm] at hn
    exact h b ⟨k, hn⟩
  rcases Nat.lt_trichotomy m n with hlt | heq | hlt
  · exact (hne hlt hm hn).elim
  · exact heq
  · exact (hne hlt hn hm).elim

/-- There is no cycle when every parent is smaller. -/
theorem Acyclic.of_lt [Preorder α] (h : ∀ a b, parent a = some b → b < a) : Acyclic parent := by
  have hlt : ∀ n a b, ancestor parent (n + 1) a = some b → b < a := by
    intro n
    induction n with
    | zero =>
        intro a b hb
        rw [ancestor_succ] at hb
        obtain ⟨c, hc, hcb⟩ := Option.bind_eq_some_iff.mp hb
        obtain rfl := Option.some.inj hcb
        exact h a c hc
    | succ n ih =>
        intro a b hb
        rw [ancestor_succ] at hb
        obtain ⟨c, hc, hcb⟩ := Option.bind_eq_some_iff.mp hb
        exact (ih c b hcb).trans (h a c hc)
  rintro a ⟨n, hn⟩
  exact lt_irrefl a (hlt n a a hn)

/-! ## A new parent -/

/-- A chain whose elements have the same parents is the same. -/
theorem ancestor_eq_of_parents (hsame : ∀ k < n, ∀ x, ancestor parent k a = some x →
    parent x = parent' x) : ancestor parent' n a = ancestor parent n a := by
  induction n generalizing a with
  | zero => rfl
  | succ n ih =>
      rw [ancestor_succ, ancestor_succ, ← hsame 0 (Nat.succ_pos n) a rfl]
      cases hp : parent a with
      | none => rfl
      | some b =>
          refine ih fun k hk x hx => hsame (k + 1) (by omega) x ?_
          rw [ancestor_succ_of_eq_some hp, hx]

/-- Chains that avoid the one element with another parent are the same. -/
theorem ancestor_congr (hsame : ∀ x, x ≠ r → parent x = parent' x)
    (havoid : ∀ k < n, ancestor parent k a ≠ some r) :
    ancestor parent' n a = ancestor parent n a := by
  refine ancestor_eq_of_parents fun k hk x hx => hsame x ?_
  rintro rfl
  exact havoid k hk hx

/-- What a chain reaches is reached a first time. -/
theorem exists_first (h : ancestor parent n a = some b) :
    ∃ k ≤ n, ancestor parent k a = some b ∧ ∀ j < k, ancestor parent j a ≠ some b := by
  classical
  have hex : ∃ k, ancestor parent k a = some b := ⟨n, h⟩
  exact ⟨Nat.find hex, Nat.find_min' hex h, Nat.find_spec hex, fun j hj => Nat.find_min hex hj⟩

/-- Whether a chain comes to the one element with another parent does not depend on that parent. -/
theorem exists_ancestor_congr (hsame : ∀ x, x ≠ r → parent x = parent' x) :
    (∃ k < n, ancestor parent' k a = some r) ↔ ∃ k < n, ancestor parent k a = some r := by
  constructor
  · rintro ⟨k, hk, hup⟩
    obtain ⟨j, hj, hfound, hfirst⟩ := exists_first hup
    have hback := ancestor_congr (fun x hx => (hsame x hx).symm) hfirst
    exact ⟨j, by omega, hback.trans hfound⟩
  · rintro ⟨k, hk, hup⟩
    obtain ⟨j, hj, hfound, hfirst⟩ := exists_first hup
    exact ⟨j, by omega, (ancestor_congr hsame hfirst).trans hfound⟩

/-- A cycle that a new parent closes passes through the element that got it. -/
theorem above_of_cycle (h : Acyclic parent) (hsame : ∀ x, x ≠ r → parent x = parent' x)
    (hcycle : Above parent' a a) : Above parent' r r := by
  obtain ⟨n, hn⟩ := hcycle
  by_cases hpass : ∃ k ≤ n, ancestor parent' k a = some r
  · obtain ⟨k, -, hk⟩ := hpass
    -- going once around from `a` and on to `r` is going from `r` to `r`
    have hround : ancestor parent' (n + 1 + k) a = some r := by
      rw [ancestor_add_of_eq_some hn, hk]
    rw [Nat.add_comm (n + 1) k, ancestor_add_of_eq_some hk] at hround
    exact ⟨n, hround⟩
  · push Not at hpass
    have hback := ancestor_congr (n := n + 1) (a := a) (fun x hx => (hsame x hx).symm)
      fun k hk => hpass k (by omega)
    rw [hn] at hback
    exact absurd ⟨n, hback⟩ (h a)

/-- An element may lose its parent. -/
theorem Acyclic.unlink (h : Acyclic parent) (hsame : ∀ x, x ≠ r → parent x = parent' x)
    (hnone : parent' r = none) : Acyclic parent' := by
  intro a hcycle
  obtain ⟨n, hn⟩ := above_of_cycle h hsame hcycle
  rw [ancestor_succ, hnone] at hn
  cases hn

/-- A new parent closes a cycle exactly when the element is its new parent or above it. -/
theorem acyclic_relink_iff (h : Acyclic parent) (hsame : ∀ x, x ≠ r → parent x = parent' x)
    (hsome : parent' r = some s) : Acyclic parent' ↔ ∀ n, ancestor parent n s ≠ some r := by
  constructor
  · intro h' n hn
    obtain ⟨k, -, hk, hfirst⟩ := exists_first hn
    have hkept : ancestor parent' k s = some r := by
      rw [ancestor_congr hsame hfirst, hk]
    exact h' r ⟨k, by rw [ancestor_succ_of_eq_some hsome, hkept]⟩
  · intro hfree a hcycle
    obtain ⟨n, hn⟩ := above_of_cycle h hsame hcycle
    rw [ancestor_succ_of_eq_some hsome] at hn
    obtain ⟨k, -, hk, hfirst⟩ := exists_first hn
    have hback := ancestor_congr (fun x hx => (hsame x hx).symm) hfirst
    exact hfree k (hback.trans hk)

/-! ## Contraction -/

section

variable [DecidableEq α]

/-- The parents after `r` merged into `s`: the children of `r` are children of `s`, and `s` itself
has no parent when that was `r`. -/
def contract (parent : α → Option α) (r s : α) (x : α) : Option α :=
  if x = r then none
  else if parent x = some r then (if x = s then none else some s)
  else parent x

theorem contract_of_ne {x : α} (hx : x ≠ r) (hparent : parent x ≠ some r) :
    contract parent r s x = parent x := by
  unfold contract
  rw [if_neg hx, if_neg hparent]

theorem contract_of_child {x : α} (hx : x ≠ r) (hs : x ≠ s) (hparent : parent x = some r) :
    contract parent r s x = some s := by
  unfold contract
  rw [if_neg hx, if_pos hparent, if_neg hs]

/-- An element gets another parent than before only when that is `s`. -/
theorem parent_of_contract {x y : α} (h : contract parent r s x = some y) :
    parent x = some y ∨ (y = s ∧ x ≠ s ∧ parent x = some r) := by
  unfold contract at h
  split at h
  next => cases h
  next =>
    split at h
    next hparent =>
      split at h
      next => cases h
      next hs => exact .inr ⟨(Option.some.inj h).symm, hs, hparent⟩
    next => exact .inl h

/-- A chain after a merge that does not come to `s` is a chain from before. -/
theorem ancestor_of_contract (hn : ancestor (contract parent r s) n a = some b)
    (havoid : ∀ k < n, ancestor (contract parent r s) (k + 1) a ≠ some s) :
    ancestor parent n a = some b := by
  refine (ancestor_eq_of_parents fun k hk x hx => ?_).trans hn
  have hnext : ancestor (contract parent r s) (k + 1) a = contract parent r s x := by
    rw [ancestor_add_of_eq_some hx, ancestor_succ]
    cases contract parent r s x <;> rfl
  obtain ⟨m, rfl⟩ : ∃ m, n = k + 1 + m := ⟨n - (k + 1), by omega⟩
  rw [ancestor_add, hnext] at hn
  obtain ⟨y, hy, -⟩ := Option.bind_eq_some_iff.mp hn
  rcases parent_of_contract hy with hold | ⟨rfl, -, -⟩
  · rw [hy, hold]
  · exact absurd (hnext.trans hy) (havoid k hk)

/-- A cycle after a merge passes through the element that the other one merged into. -/
theorem above_of_contract_cycle (h : Acyclic parent) (hcycle : Above (contract parent r s) a a) :
    Above (contract parent r s) s s := by
  obtain ⟨n, hn⟩ := hcycle
  by_cases hpass : ∃ k ≤ n, ancestor (contract parent r s) (k + 1) a = some s
  · obtain ⟨k, -, hk⟩ := hpass
    have hround : ancestor (contract parent r s) (n + 1 + (k + 1)) a = some s := by
      rw [ancestor_add_of_eq_some hn, hk]
    rw [Nat.add_comm, ancestor_add_of_eq_some hk] at hround
    exact ⟨n, hround⟩
  · push Not at hpass
    exact absurd ⟨n, ancestor_of_contract hn fun k hk => hpass k (by omega)⟩ (h a)

/-- Merging `r` into another element closes a cycle exactly when that stands two or more steps
below `r`. -/
theorem acyclic_contract_iff (h : Acyclic parent) (hne : s ≠ r) :
    Acyclic (contract parent r s) ↔ ∀ n ≥ 2, ancestor parent n s ≠ some r := by
  constructor
  · intro h' n hn hdeep
    obtain ⟨k, rfl⟩ : ∃ k, n = (k + 1) + 1 := ⟨n - 2, by omega⟩
    obtain ⟨x, hx, hparent⟩ : ∃ x, ancestor parent (k + 1) s = some x ∧ parent x = some r := by
      rw [ancestor_add] at hdeep
      obtain ⟨x, hx, hstep⟩ := Option.bind_eq_some_iff.mp hdeep
      refine ⟨x, hx, ?_⟩
      rw [ancestor_succ] at hstep
      obtain ⟨y, hy, hyr⟩ := Option.bind_eq_some_iff.mp hstep
      rw [hy, ← Option.some.inj hyr]
    -- no element below `x` on the chain is `r` or one of its children
    have hsame : ∀ j < k + 1, ∀ y, ancestor parent j s = some y →
        parent y = contract parent r s y := by
      intro j hj y hy
      refine (contract_of_ne ?_ fun hchild => ?_).symm
      · rintro rfl
        have hheight := h.height_unique hy hdeep
        omega
      · have hearly : ancestor parent (j + 1) s = some r := by
          rw [ancestor_add_of_eq_some hy, ancestor_succ_of_eq_some hchild, ancestor_zero]
        have hheight := h.height_unique hearly hdeep
        omega
    have hkept := (ancestor_eq_of_parents hsame).trans hx
    have hxr : x ≠ r := by
      rintro rfl
      exact h x (.of_parent hparent)
    have hxs : x ≠ s := by
      rintro rfl
      exact h x ⟨k, hx⟩
    refine h' s ⟨k + 1, ?_⟩
    rw [ancestor_add_of_eq_some hkept, ancestor_succ_of_eq_some (contract_of_child hxr hxs hparent),
      ancestor_zero]
  · intro hfree a hcycle
    obtain ⟨n, hn⟩ := above_of_contract_cycle h hcycle
    obtain ⟨c, hc, hround⟩ := Option.bind_eq_some_iff.mp hn
    obtain ⟨k, -, hk, hfirst⟩ := exists_first hround
    have hsc : parent s = some c := by
      rcases parent_of_contract hc with hold | ⟨-, hs, -⟩
      · exact hold
      · exact absurd rfl hs
    cases k with
    | zero =>
        obtain rfl := Option.some.inj hk
        exact h c (.of_parent hsc)
    | succ m =>
        rw [ancestor_add] at hk
        obtain ⟨x, hx, hstep⟩ := Option.bind_eq_some_iff.mp hk
        obtain ⟨y, hxy, hys⟩ := Option.bind_eq_some_iff.mp hstep
        obtain rfl : y = s := Option.some.inj hys
        have hold : ancestor parent m c = some x :=
          ancestor_of_contract hx fun j hj => hfirst (j + 1) (by omega)
        rcases parent_of_contract hxy with hback | ⟨-, -, hchild⟩
        · refine h y ⟨m + 1, ?_⟩
          rw [ancestor_succ_of_eq_some hsc, ancestor_add_of_eq_some hold,
            ancestor_succ_of_eq_some hback, ancestor_zero]
        · refine hfree (m + 2) (by omega) ?_
          rw [ancestor_succ_of_eq_some hsc, ancestor_add_of_eq_some hold,
            ancestor_succ_of_eq_some hchild, ancestor_zero]

end

/-! ## Bounded walks -/

section

variable [DecidableEq α]

/-- Whether a walk along a chain meets an element: it looks at the elements that it has not seen
before, at most so many, and never ends when it comes back to one that it has seen. -/
def walkMeets (parent : α → Option α) (target : α) : ℕ → List α → Option α → Option Bool
  | 0, _, _ => some false
  | _ + 1, _, none => some false
  | n + 1, seen, some current =>
      if current = target then some true
      else if current ∈ seen then none
      else walkMeets parent target n (current :: seen) (parent current)

/-- Without a cycle a walk ends, and it meets what stands low enough on the chain. -/
theorem Acyclic.walkMeets_eq_some (h : Acyclic parent) {target : α} (n : ℕ) {seen : List α}
    {start : Option α} (hseen : ∀ s ∈ seen, ∀ c, start = some c → Above parent c s) :
    ∃ found, walkMeets parent target n seen start = some found ∧
      (found = true ↔ ∃ k < n, start.bind (ancestor parent k) = some target) := by
  induction n generalizing seen start with
  | zero => exact ⟨false, rfl, by simp⟩
  | succ n ih =>
      cases start with
      | none => exact ⟨false, rfl, by simp⟩
      | some current =>
          rw [walkMeets]
          by_cases htarget : current = target
          · rw [if_pos htarget]
            exact ⟨true, rfl, fun _ => ⟨0, by omega, by rw [htarget]; rfl⟩, fun _ => rfl⟩
          · have hnew : current ∉ seen := fun hmem => h current (hseen current hmem current rfl)
            rw [if_neg htarget, if_neg hnew]
            have hnext : ∀ s ∈ current :: seen, ∀ c, parent current = some c → Above parent c s := by
              intro s hs c hc
              rcases List.mem_cons.mp hs with rfl | hs
              · exact .of_parent hc
              · exact (hseen s hs current rfl).trans (.of_parent hc)
            obtain ⟨found, hwalk, hfound⟩ := ih hnext
            refine ⟨found, hwalk, hfound.trans ?_⟩
            constructor
            · rintro ⟨k, hk, hreach⟩
              exact ⟨k + 1, by omega, hreach⟩
            · rintro ⟨k, hk, hreach⟩
              cases k with
              | zero => exact absurd (Option.some.inj hreach) htarget
              | succ k => exact ⟨k, by omega, hreach⟩

end

end Ordering
