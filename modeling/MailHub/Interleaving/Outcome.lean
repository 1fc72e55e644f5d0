import MailHub.Interleaving.Program

/-!
# Outcomes of one program

What a program can come to next to others: between two of its statements the others may change the
store, a request may get any answer that the surroundings allow, and a statement may fail from
outside. With surroundings that change nothing and give one answer, the outcome is the evaluation
of the program on a fixed store.
-/

namespace Interleaving

/-- What a program meets while it runs. -/
structure Surroundings (S : Signature) where
  /-- What the others do to the store between two statements. -/
  rely : S.Store → S.Store → Prop
  /-- Where a named statement runs. -/
  takes : Option S.Tag → S.Store → Prop
  answers : (c : S.Call) → Except S.Failure (S.Answer c) → Prop
  /-- The failures that a statement may meet from outside. -/
  fault : S.Failure → Prop

variable {S : Signature} {α β : Type}

/-- A transaction begun at a store: it runs where the others have led, or fails there from
outside. -/
inductive Surroundings.Runs (E : Surroundings S) (tag : Option S.Tag)
    (f : S.Store → Except S.Failure (β × S.Store)) (s : S.Store) :
    Except S.Failure β → S.Store → Prop
  | commit {s₁ s₂ : S.Store} {b : β} (hs : E.rely s s₁) (htakes : E.takes tag s₁)
      (hf : f s₁ = .ok (b, s₂)) : Runs E tag f s (.ok b) s₂
  | refuse {s₁ : S.Store} {e : S.Failure} (hs : E.rely s s₁) (htakes : E.takes tag s₁)
      (hf : f s₁ = .error e) : Runs E tag f s (.error e) s₁
  | fault {s₁ : S.Store} {e : S.Failure} (hs : E.rely s s₁) (he : E.fault e) :
      Runs E tag f s (.error e) s₁

/-- From a store, a program comes to a result and leaves a store. -/
def Program.Outcome (E : Surroundings S) : Program S α → S.Store → Except S.Failure α → S.Store →
    Prop
  | pure a, s, r, s' => r = .ok a ∧ s' = s
  | throw e, s, r, s' => r = .error e ∧ s' = s
  | halt, _, _, _ => False
  | atomic tag f k, s, r, s' => ∃ x s₁, E.Runs tag f s x s₁ ∧ (k x).Outcome E s₁ r s'
  | call c k, s, r, s' => ∃ x s₁, (E.rely s s₁ ∧ E.answers c x) ∧ (k x).Outcome E s₁ r s'

namespace Program

variable {E : Surroundings S} {p : Program S α} {f : α → Program S β} {s s' : S.Store} {a : α}

@[simp] theorem outcome_pure {r : Except S.Failure α} :
    (pure a : Program S α).Outcome E s r s' ↔ r = .ok a ∧ s' = s := Iff.rfl

@[simp] theorem outcome_throw {e : S.Failure} {r : Except S.Failure α} :
    (throw e : Program S α).Outcome E s r s' ↔ r = .error e ∧ s' = s := Iff.rfl

@[simp] theorem outcome_ofExcept {x r : Except S.Failure α} :
    (ofExcept x : Program S α).Outcome E s r s' ↔ r = x ∧ s' = s := by
  cases x <;> exact Iff.rfl

/-- A sequence goes on with what its first part returns, or fails with it. -/
theorem outcome_bind {r : Except S.Failure β} :
    (p.bind f).Outcome E s r s' ↔
      (∃ a s₁, p.Outcome E s (.ok a) s₁ ∧ (f a).Outcome E s₁ r s') ∨
        ∃ e, r = .error e ∧ p.Outcome E s (.error e) s' := by
  induction p generalizing s with
  | pure a =>
      constructor
      · intro h
        exact .inl ⟨a, s, ⟨rfl, rfl⟩, h⟩
      · rintro (⟨_, _, ⟨h, rfl⟩, hf⟩ | ⟨e, -, h, -⟩)
        · obtain rfl := Except.ok.inj h
          exact hf
        · cases h
  | throw e =>
      constructor
      · rintro ⟨rfl, rfl⟩
        exact .inr ⟨e, rfl, rfl, rfl⟩
      · rintro (⟨_, _, ⟨h, -⟩, -⟩ | ⟨_, rfl, h, rfl⟩)
        · cases h
        · obtain rfl := Except.error.inj h
          exact ⟨rfl, rfl⟩
  | halt => simp [bind, Outcome]
  | atomic tag t k ih | call c k ih =>
      simp only [bind, Outcome, ih]
      constructor
      · rintro ⟨x, s₁, hx, ⟨a, s₂, h, hf⟩ | ⟨e, rfl, h⟩⟩
        · exact .inl ⟨a, s₂, ⟨x, s₁, hx, h⟩, hf⟩
        · exact .inr ⟨e, rfl, x, s₁, hx, h⟩
      · rintro (⟨a, s₂, ⟨x, s₁, hx, h⟩, hf⟩ | ⟨e, rfl, x, s₁, hx, h⟩)
        · exact ⟨x, s₁, hx, .inl ⟨a, s₂, h, hf⟩⟩
        · exact ⟨x, s₁, hx, .inr ⟨e, rfl, h⟩⟩

/-- A sequence that returns went through both parts. -/
theorem outcome_bind_ok {b : β} :
    (p.bind f).Outcome E s (.ok b) s' ↔
      ∃ a s₁, p.Outcome E s (.ok a) s₁ ∧ (f a).Outcome E s₁ (.ok b) s' := by
  rw [outcome_bind]
  constructor
  · rintro (h | ⟨e, he, -⟩)
    · exact h
    · cases he
  · exact .inl

/-- A transaction that returns ran at a store the others led to. -/
theorem outcome_transaction_ok {tag : Option S.Tag} {t : Transaction S α} :
    (transaction tag t).Outcome E s (.ok a) s' ↔
      ∃ s₁, E.rely s s₁ ∧ E.takes tag s₁ ∧ t s₁ = .ok (a, s') := by
  unfold transaction
  simp only [Outcome, outcome_ofExcept]
  constructor
  · rintro ⟨_, _, hruns, rfl, rfl⟩
    cases hruns with
    | commit hs htakes hf => exact ⟨_, hs, htakes, hf⟩
  · rintro ⟨s₁, hs, htakes, hf⟩
    exact ⟨_, _, .commit hs htakes hf, rfl, rfl⟩

/-- A query that returns gives what the store held where it ran. -/
theorem outcome_read_ok {g : S.Store → α} :
    (read g).Outcome E s (.ok a) s' ↔ E.rely s s' ∧ E.takes none s' ∧ a = g s' := by
  have htransaction : (read g : Program S α).Outcome E s (.ok a) s' ↔
      ∃ s₁, E.rely s s₁ ∧ E.takes none s₁ ∧
        (Except.ok (g s₁, s₁) : Except S.Failure (α × S.Store)) = .ok (a, s') :=
    outcome_transaction_ok
  rw [htransaction]
  constructor
  · rintro ⟨s₁, hs, htakes, h⟩
    obtain ⟨rfl, rfl⟩ := Prod.mk.inj (Except.ok.inj h)
    exact ⟨hs, htakes, rfl⟩
  · rintro ⟨hs, htakes, rfl⟩
    exact ⟨s', hs, htakes, rfl⟩

/-- A request that returns got an allowed answer. -/
theorem outcome_request_ok {c : S.Call} {x : S.Answer c} :
    (request c).Outcome E s (.ok x) s' ↔ E.rely s s' ∧ E.answers c (.ok x) := by
  unfold request
  simp only [Outcome, outcome_ofExcept]
  constructor
  · rintro ⟨_, _, h, rfl, rfl⟩
    exact h
  · intro h
    exact ⟨_, _, h, rfl, rfl⟩

/-- An attempt returns what the program comes to. -/
theorem outcome_attempt {r : Except S.Failure (Except S.Failure α)} :
    p.attempt.Outcome E s r s' ↔ ∃ x, r = .ok x ∧ p.Outcome E s x s' := by
  unfold attempt
  induction p generalizing s with
  | pure a =>
      constructor
      · rintro ⟨rfl, rfl⟩
        exact ⟨.ok a, rfl, rfl, rfl⟩
      · rintro ⟨_, rfl, rfl, rfl⟩
        exact ⟨rfl, rfl⟩
  | throw e =>
      constructor
      · rintro ⟨rfl, rfl⟩
        exact ⟨.error e, rfl, rfl, rfl⟩
      · rintro ⟨_, rfl, rfl, rfl⟩
        exact ⟨rfl, rfl⟩
  | halt => simp [bind, handle, Outcome]
  | atomic tag t k ih | call c k ih =>
      simp only [bind, handle, Outcome, ih]
      constructor
      · rintro ⟨y, s₁, hy, x, rfl, hx⟩
        exact ⟨x, rfl, y, s₁, hy, hx⟩
      · rintro ⟨x, rfl, y, s₁, hy, hx⟩
        exact ⟨y, s₁, hy, x, rfl, hx⟩

end Program

/-! ## With no one else around -/

/-- Surroundings in which no one else runs and no statement fails from outside; a request may get
any answer. -/
def Surroundings.alone (S : Signature) : Surroundings S where
  rely s s' := s' = s
  takes _ _ := True
  answers _ _ := True
  fault _ := False

namespace Program

variable {p : Program S α} {f : α → Program S β} {s s' : S.Store} {a : α}

/-- A transaction alone commits what it computes, or leaves the store alone. -/
theorem outcome_transaction_alone {tag : Option S.Tag} {t : Transaction S α}
    {r : Except S.Failure α} : (transaction tag t).Outcome (.alone S) s r s' ↔
      (∃ a, r = .ok a ∧ t.run s = .ok (a, s')) ∨ ∃ e, r = .error e ∧ t.run s = .error e ∧ s' = s := by
  unfold transaction
  simp only [Outcome, outcome_ofExcept]
  constructor
  · rintro ⟨_, _, hruns, rfl, rfl⟩
    cases hruns with
    | commit hs _ hf =>
        obtain rfl := hs
        exact .inl ⟨_, rfl, hf⟩
    | refuse hs _ hf =>
        obtain rfl := hs
        exact .inr ⟨_, rfl, hf, rfl⟩
    | fault _ he => exact he.elim
  · rintro (⟨a, rfl, hf⟩ | ⟨e, rfl, hf, rfl⟩)
    · exact ⟨_, _, .commit rfl trivial hf, rfl, rfl⟩
    · exact ⟨_, _, .refuse rfl trivial hf, rfl, rfl⟩

theorem outcome_read_alone {g : S.Store → α} {r : Except S.Failure α} :
    (read g).Outcome (.alone S) s r s' ↔ r = .ok (g s) ∧ s' = s := by
  have htransaction : (read g : Program S α).Outcome (.alone S) s r s' ↔
      (∃ a, r = .ok a ∧ (Except.ok (g s, s) : Except S.Failure (α × S.Store)) = .ok (a, s')) ∨
        ∃ e, r = .error e ∧ (Except.ok (g s, s) : Except S.Failure (α × S.Store)) = .error e ∧
          s' = s := outcome_transaction_alone
  rw [htransaction]
  constructor
  · rintro (⟨a, rfl, h⟩ | ⟨e, rfl, h, rfl⟩)
    · obtain ⟨rfl, rfl⟩ := Prod.mk.inj (Except.ok.inj h)
      exact ⟨rfl, rfl⟩
    · cases h
  · rintro ⟨rfl, rfl⟩
    exact .inl ⟨_, rfl, rfl⟩

/-- A program that leaves the store as it was, whatever it comes to. -/
structure Reads (p : Program S α) : Prop where
  unchanged : ∀ s r s', p.Outcome (.alone S) s r s' → s' = s

namespace Reads

theorem pure (a : α) : Reads (Pure.pure a : Program S α) := ⟨fun _ _ _ h => h.2⟩

theorem throw (e : S.Failure) : Reads (MonadExcept.throw e : Program S α) := ⟨fun _ _ _ h => h.2⟩

theorem ofExcept (x : Except S.Failure α) : Reads (Program.ofExcept x) :=
  ⟨fun _ _ _ h => (outcome_ofExcept.mp h).2⟩

theorem read (g : S.Store → α) : Reads (Program.read g : Program S α) :=
  ⟨fun _ _ _ h => (outcome_read_alone.mp h).2⟩

theorem request (c : S.Call) : Reads (Program.request c) := by
  constructor
  intro s r s' h
  obtain ⟨x, s₁, ⟨hs, -⟩, h⟩ := h
  exact (outcome_ofExcept.mp h).2.trans hs

theorem bind (hp : Reads p) (hf : ∀ a, Reads (f a)) : Reads (p >>= f) := by
  constructor
  intro s r s' h
  rcases outcome_bind.mp h with ⟨a, s₁, h₁, h₂⟩ | ⟨e, -, h⟩
  · exact ((hf a).unchanged _ _ _ h₂).trans (hp.unchanged _ _ _ h₁)
  · exact hp.unchanged _ _ _ h

theorem ite {q : Prop} [Decidable q] {p' : Program S α} (hp : Reads p) (hp' : Reads p') :
    Reads (if q then p else p') := by
  split
  · exact hp
  · exact hp'

theorem attempt (hp : Reads p) : Reads p.attempt := by
  constructor
  intro s r s' h
  obtain ⟨x, -, h⟩ := outcome_attempt.mp h
  exact hp.unchanged _ _ _ h

end Reads

variable {E : Surroundings S}

/-! ## Evaluation -/

/-- Run a program with no one else around and one answer to each request. -/
def evaluate (reply : (c : S.Call) → Except S.Failure (S.Answer c)) :
    Program S α → S.Store → Option (Except S.Failure α × S.Store)
  | pure a, s => some (.ok a, s)
  | throw e, s => some (.error e, s)
  | halt, _ => none
  | atomic _ f k, s =>
      match f s with
      | .ok (b, s') => (k (.ok b)).evaluate reply s'
      | .error e => (k (.error e)).evaluate reply s
  | call c k, s => (k (reply c)).evaluate reply s

/-- An evaluation is an outcome where the others may do nothing. -/
theorem outcome_of_evaluate {reply : (c : S.Call) → Except S.Failure (S.Answer c)}
    (hrely : ∀ s, E.rely s s) (htakes : ∀ tag s, E.takes tag s)
    (hreply : ∀ c, E.answers c (reply c)) {r : Except S.Failure α}
    (h : p.evaluate reply s = some (r, s')) : p.Outcome E s r s' := by
  induction p generalizing s with
  | pure a | throw e =>
      obtain ⟨rfl, rfl⟩ := Prod.mk.inj (Option.some.inj h)
      exact ⟨rfl, rfl⟩
  | halt => cases h
  | atomic tag f k ih =>
      unfold evaluate at h
      split at h
      next b s₁ hf => exact ⟨_, s₁, .commit (hrely s) (htakes tag s) hf, ih _ h⟩
      next e hf => exact ⟨_, s, .refuse (hrely s) (htakes tag s) hf, ih _ h⟩
  | call c k ih => exact ⟨reply c, s, ⟨hrely s, hreply c⟩, ih _ h⟩

end Program

end Interleaving
