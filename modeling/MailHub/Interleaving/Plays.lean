import MailHub.Interleaving.Program

/-!
# Plays of one program

One run of a program in an environment that is given by position: before each node the others may
change the store, and each request gets the answer of its position. A run meets each position once,
so every behaviour of the surroundings, with a memory or without, is such an environment. A play
keeps the requests that were refused, so that it can be asked whose refusals end the program.
-/

namespace Interleaving

/-- What a program meets at the nodes of its run, counted from the first one. -/
structure Environment (S : Signature) where
  /-- What the others do to the store before a node. -/
  others : ℕ → S.Store → S.Store
  /-- The answer to a request at a node. -/
  reply : ℕ → (c : S.Call) → Except S.Failure (S.Answer c)

/-- One run of a program. -/
structure Play (S : Signature) (α : Type) where
  /-- What the program came to, or `none` when it never comes back. -/
  result : Option (Except S.Failure α)
  store : S.Store
  /-- The position after the run. -/
  next : ℕ
  /-- The requests that were refused, in order. -/
  refused : List S.Call

variable {S : Signature} {α β : Type}

/-- A failure ended the run. -/
def Play.Failed (run : Play S α) : Prop := ∃ e, run.result = some (.error e)

/-- A run that goes on where another one returned. -/
def Play.andThen (run : Play S α) (rest : α → ℕ → S.Store → Play S β) : Play S β :=
  match run.result with
  | some (.ok a) =>
      let later := rest a run.next run.store
      ⟨later.result, later.store, later.next, run.refused ++ later.refused⟩
  | some (.error e) => ⟨some (.error e), run.store, run.next, run.refused⟩
  | none => ⟨none, run.store, run.next, run.refused⟩

theorem Play.andThen_ok {run : Play S α} {rest : α → ℕ → S.Store → Play S β} {a : α}
    (h : run.result = some (.ok a)) :
    run.andThen rest =
      ⟨(rest a run.next run.store).result, (rest a run.next run.store).store,
        (rest a run.next run.store).next, run.refused ++ (rest a run.next run.store).refused⟩ := by
  simp only [andThen, h]

theorem Play.andThen_error {run : Play S α} {rest : α → ℕ → S.Store → Play S β} {e : S.Failure}
    (h : run.result = some (.error e)) :
    run.andThen rest = ⟨some (.error e), run.store, run.next, run.refused⟩ := by
  simp only [andThen, h]

theorem Play.andThen_none {run : Play S α} {rest : α → ℕ → S.Store → Play S β}
    (h : run.result = none) : run.andThen rest = ⟨none, run.store, run.next, run.refused⟩ := by
  simp only [andThen, h]

/-- The request that an answer refused. -/
def refusal (c : S.Call) : Except S.Failure (S.Answer c) → List S.Call
  | .ok _ => []
  | .error _ => [c]

namespace Program

/-- Run a program from a position and a store. -/
def play (E : Environment S) : Program S α → ℕ → S.Store → Play S α
  | pure a, n, s => ⟨some (.ok a), s, n, []⟩
  | throw e, n, s => ⟨some (.error e), s, n, []⟩
  | halt, n, s => ⟨none, s, n, []⟩
  | atomic _ f k, n, s =>
      match f (E.others n s) with
      | .ok (b, s') => (k (.ok b)).play E (n + 1) s'
      | .error e => (k (.error e)).play E (n + 1) (E.others n s)
  | call c k, n, s =>
      let rest := (k (E.reply n c)).play E (n + 1) (E.others n s)
      ⟨rest.result, rest.store, rest.next, refusal c (E.reply n c) ++ rest.refused⟩

variable {E : Environment S} {p : Program S α} {f : α → Program S β} {n : ℕ} {s : S.Store}

/-! ## Sequences -/

/-- A sequence goes on with what its first part returns, or ends as that does. -/
theorem play_bind : (p >>= f).play E n s = (p.play E n s).andThen fun a => (f a).play E := by
  induction p generalizing n s with
  | pure a => rfl
  | throw e => rfl
  | halt => rfl
  | atomic tag t k ih =>
      simp only [bind_eq, bind, play] at ih ⊢
      split
      · exact ih _
      · exact ih _
  | call c k ih =>
      simp only [bind_eq, bind, play] at ih ⊢
      rw [ih]
      unfold Play.andThen
      dsimp only
      split
      · simp only [List.append_assoc]
      · rfl
      · rfl

/-! ## Refusals that nobody catches -/

/-- In every run of the program, the refusal of one of the calls ends it with a failure. -/
structure Uncaught (calls : S.Call → Prop) (p : Program S α) : Prop where
  failed : ∀ E n s, ∀ c ∈ (p.play E n s).refused, calls c → (p.play E n s).Failed

namespace Uncaught

variable {calls : S.Call → Prop}

theorem pure (a : α) : Uncaught calls (Pure.pure a : Program S α) :=
  ⟨fun _ _ _ _ hc => by cases hc⟩

theorem throw (e : S.Failure) : Uncaught calls (MonadExcept.throw e : Program S α) :=
  ⟨fun _ _ _ _ hc => by cases hc⟩

theorem transaction (tag : Option S.Tag) (t : Transaction S α) :
    Uncaught calls (Program.transaction tag t) := by
  constructor
  intro E n s c hc
  unfold Program.transaction play at hc
  split at hc <;> cases hc

theorem read (g : S.Store → α) : Uncaught calls (Program.read g : Program S α) :=
  ⟨fun _ _ _ _ hc => by cases hc⟩

/-- A refused request ends the program that makes it. -/
theorem request (c : S.Call) : Uncaught calls (Program.request c) := by
  constructor
  intro E n s c' hc _
  unfold Play.Failed
  simp only [Program.request, play] at hc ⊢
  cases hreply : E.reply n c with
  | ok a => simp [hreply, refusal, ofExcept, play] at hc
  | error e => exact ⟨e, rfl⟩

/-- A request of another kind may be attempted. -/
theorem attempt_request {c : S.Call} (h : ¬ calls c) :
    Uncaught calls (Program.request c).attempt := by
  constructor
  intro E n s c' hc hcalls
  have hrefused : c' = c := by
    simp only [Program.request, attempt, bind, handle, play] at hc
    cases hreply : E.reply n c with
    | ok a => simp [hreply, refusal, ofExcept, handle, play] at hc
    | error e => simpa [hreply, refusal, ofExcept, bind, handle, play] using hc
  exact absurd (hrefused ▸ hcalls) h

theorem bind (hp : Uncaught calls p) (hf : ∀ a, Uncaught calls (f a)) :
    Uncaught calls (p >>= f) := by
  constructor
  intro E n s c hc hcalls
  have hfirst := hp.failed E n s c
  rw [play_bind] at hc ⊢
  cases hresult : (p.play E n s).result with
  | none =>
      rw [Play.andThen_none hresult] at hc
      obtain ⟨e, he⟩ := hfirst hc hcalls
      rw [hresult] at he
      cases he
  | some r =>
      cases r with
      | error e =>
          rw [Play.andThen_error hresult]
          exact ⟨e, rfl⟩
      | ok a =>
          rw [Play.andThen_ok hresult] at hc ⊢
          rcases List.mem_append.mp hc with hc | hc
          · -- the first part has returned, so none of its refusals can be of these calls
            obtain ⟨e, he⟩ := hfirst hc hcalls
            rw [hresult] at he
            cases he
          · exact (hf a).failed E _ _ c hc hcalls

theorem ite {q : Prop} [Decidable q] {p' : Program S α} (hp : Uncaught calls p)
    (hp' : Uncaught calls p') : Uncaught calls (if q then p else p') := by
  split
  · exact hp
  · exact hp'

theorem forIn {γ : Type} {xs : List γ} {b : β} {g : γ → β → Program S (ForInStep β)}
    (hg : ∀ x b, Uncaught calls (g x b)) : Uncaught calls (ForIn.forIn xs b g) := by
  induction xs generalizing b with
  | nil => exact pure b
  | cons x xs ih =>
      rw [List.forIn_cons]
      refine (hg x b).bind fun r => ?_
      cases r with
      | done b' => exact pure b'
      | yield b' => exact ih

end Uncaught

end Program

end Interleaving
