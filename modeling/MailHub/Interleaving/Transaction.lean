import Mathlib.Data.Nat.Notation
import Mathlib.Order.Defs.Unbundled
import Mathlib.Tactic.Common

/-!
# Successful runs of a transaction

A transaction threads a store through statements that may throw. These equations say what a
successful run of each statement form is, so that simplification turns the run of a whole
transaction into the guards it passed and the store it left.
-/

namespace Interleaving

variable {σ ε α β : Type} {s : σ} {b : β} {e : ε}

/-! ## Computations that may throw -/

/-- A sequence succeeds when its first part does and the rest succeeds from there. -/
@[simp] theorem bind_eq_ok {x : Except ε α} {f : α → Except ε β} :
    x >>= f = .ok b ↔ ∃ a, x = .ok a ∧ f a = .ok b := by
  cases x <;> simp [bind, Except.bind]

@[simp] theorem map_eq_ok {x : Except ε α} {f : α → β} :
    f <$> x = .ok b ↔ ∃ a, x = .ok a ∧ f a = b := by
  cases x <;> simp [Functor.map, Except.map]

@[simp] theorem pure_eq_ok {a : β} : (pure a : Except ε β) = .ok b ↔ a = b := by
  simp [pure, Except.pure]

@[simp] theorem throw_eq_error : (throw e : Except ε β) = .error e := rfl

/-- A conditional succeeds on the branch that its condition chooses. -/
@[simp] theorem ite_eq_ok {c : Prop} [Decidable c] {x y : Except ε β} :
    (if c then x else y) = .ok b ↔ c ∧ x = .ok b ∨ ¬ c ∧ y = .ok b := by
  by_cases hc : c <;> simp [hc]

/-- A value is handed on. -/
theorem ok_bind {a : α} {f : α → Except ε β} : (.ok a : Except ε α) >>= f = f a := rfl

/-- A failure ends a sequence. -/
@[simp] theorem error_bind {f : α → Except ε β} : (.error e : Except ε α) >>= f = .error e := rfl

@[simp] theorem map_error {f : α → β} : f <$> (.error e : Except ε α) = .error e := rfl

/-! ## Statements on the store -/

/-- A statement that throws leaves no store. -/
@[simp] theorem run_throw : (throw e : StateT σ (Except ε) β).run s = .error e := rfl

/-- A computation without the store leaves the store alone. -/
@[simp] theorem run_lift {x : Except ε β} :
    (liftM x : StateT σ (Except ε) β).run s = x.map fun b => (b, s) := by
  cases x <;> rfl

@[simp] theorem run_ite {c : Prop} [Decidable c] {t u : StateT σ (Except ε) β} :
    (if c then t else u).run s = if c then t.run s else u.run s := by
  by_cases hc : c <;> simp [hc]

@[simp] theorem except_map_eq_ok {x : Except ε α} {f : α → β} :
    x.map f = .ok b ↔ ∃ a, x = .ok a ∧ f a = b := by
  cases x <;> simp [Except.map]

/-! ## Steps of a relation -/

/-- Every successful run of the statements from `s` is a step of `R`. -/
structure Steps (R : σ → σ → Prop) (s : σ) (t : StateT σ (Except ε) β) : Prop where
  /-- A successful run leads to a related store. -/
  step : ∀ b s', t.run s = .ok (b, s') → R s s'

namespace Steps

variable {R : σ → σ → Prop} {t : StateT σ (Except ε) α} {f : α → StateT σ (Except ε) β} {s₁ : σ}

theorem throw : Steps R s (throw e : StateT σ (Except ε) β) := ⟨fun _ _ h => by simp at h⟩

theorem set (h : R s s₁) : Steps R s (MonadStateOf.set s₁ : StateT σ (Except ε) PUnit) :=
  ⟨fun b s' hrun => by
    obtain ⟨-, rfl⟩ : b = ⟨⟩ ∧ s₁ = s' := by simpa using hrun
    exact h⟩

theorem modify {f : σ → σ} (h : R s (f s)) :
    Steps R s (modify f : StateT σ (Except ε) PUnit) :=
  ⟨fun b s' hrun => by
    obtain ⟨-, rfl⟩ : b = ⟨⟩ ∧ f s = s' := by simpa using hrun
    exact h⟩

theorem ite {c : Prop} [Decidable c] {u v : StateT σ (Except ε) β} (hu : c → Steps R s u)
    (hv : ¬ c → Steps R s v) : Steps R s (if c then u else v) := by
  split
  · exact hu ‹_›
  · exact hv ‹_›

/-- What follows a read starts with the store that was read. -/
theorem get_bind {f : σ → StateT σ (Except ε) β} (h : Steps R s (f s)) :
    Steps R s (MonadState.get >>= f) :=
  ⟨fun b s' hrun => h.step b s' (by simpa using hrun)⟩

/-- A check that fails ends the transaction. -/
theorem throw_bind {f : α → StateT σ (Except ε) β} :
    Steps R s ((MonadExcept.throw e : StateT σ (Except ε) α) >>= f) :=
  ⟨fun _ _ h => by simp at h⟩

theorem pure [Std.Refl R] (b : β) : Steps R s (Pure.pure b : StateT σ (Except ε) β) :=
  ⟨fun b' s' hrun => by
    obtain ⟨-, rfl⟩ : b = b' ∧ s = s' := by simpa using hrun
    exact Std.Refl.refl s⟩

/-- A computation without the store leaves the store alone. -/
theorem lift [Std.Refl R] {x : Except ε β} : Steps R s (liftM x : StateT σ (Except ε) β) :=
  ⟨fun b s' hrun => by
    obtain ⟨-, -, -, rfl⟩ : ∃ a, x = .ok a ∧ a = b ∧ s = s' := by simpa using hrun
    exact Std.Refl.refl s⟩

variable [IsTrans σ R]

/-- What follows a write starts with the store that was written. -/
theorem set_bind {f : PUnit → StateT σ (Except ε) β} (hR : R s s₁) (h : Steps R s₁ (f ⟨⟩)) :
    Steps R s (MonadStateOf.set s₁ >>= f) :=
  ⟨fun b s' hrun => IsTrans.trans _ _ _ hR (h.step b s' (by simpa using hrun))⟩

theorem bind (ht : Steps R s t) (hf : ∀ a s', t.run s = .ok (a, s') → Steps R s' (f a)) :
    Steps R s (t >>= f) :=
  ⟨fun b s' hrun => by
    obtain ⟨a, s₂, hrun₁, hrun₂⟩ : ∃ a s₂, t.run s = .ok (a, s₂) ∧ (f a).run s₂ = .ok (b, s') := by
      simpa using hrun
    exact IsTrans.trans _ _ _ (ht.step a s₂ hrun₁) ((hf a s₂ hrun₁).step b s' hrun₂)⟩

end Steps

end Interleaving
