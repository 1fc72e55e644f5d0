import MailHub.Interleaving.Program

/-!
# Pools of interleaved programs

A pool holds one store, the state of everything outside it, and a list of programs. An event
lets one worker take one node, stops a worker for good, starts a new one, or changes the outside.
Any order of events is a run, so a run is any interleaving with crashes between any two nodes.
-/

namespace Interleaving

variable {S : Signature} {O : Type}

/-! ## Systems -/

/-- The store together with the state outside it. -/
structure World (S : Signature) (O : Type) where
  /-- What transactions see. -/
  store : S.Store
  /-- What requests see, together with the records a specification keeps about the run. -/
  outside : O

/-- How the outside behaves and which operations may be started. -/
structure System (S : Signature) (O : Type) where
  /-- The operations. -/
  Op : Type
  /-- The program of each operation. -/
  program : Op → Program S Unit
  /-- Changes of the outside that no worker makes. -/
  Tick : Type
  /-- The outside after such a change, or `none` when it cannot happen. -/
  advance : Tick → O → Option O
  /-- The outside after one answer to one request, or `none` when it cannot be given. -/
  respond : ℕ → (c : S.Call) → Except S.Failure (S.Answer c) → O → Option O
  /-- The failures that a transaction may meet on its way to the store. -/
  fault : S.Failure → Bool
  /-- The record kept of a committed transaction. -/
  observe : ℕ → Option S.Tag → S.Store → S.Store → O → O
  /-- Reading leaves no record. -/
  observe_read : ∀ i s o, observe i none s s o = o
  /-- The record kept of a worker that is gone. -/
  retire : ℕ → O → O

/-- A moment of a run: the world and what is left of every worker. -/
structure Config (S : Signature) (O : Type) : Type 1 where
  /-- The store and the outside. -/
  world : World S O
  /-- The rest of every worker's program; a worker keeps its position for ever. -/
  workers : List (Program S Unit)

/-- Whether a program has nothing left to do. -/
def Program.finished {α : Type} : Program S α → Bool
  | pure _ | throw _ | halt => true
  | atomic .. | call .. => false

/-! ## Events -/

/-- What can happen next. -/
inductive Event (M : System S O)
  /-- A new worker starts an operation. -/
  | spawn (op : M.Op)
  /-- Worker `i` runs the transaction it stands at. -/
  | commit (i : ℕ)
  /-- The transaction of worker `i` meets a fault and does not commit. -/
  | abort (i : ℕ) (e : S.Failure)
  /-- Worker `i` gets an answer to the request it stands at. -/
  | answer (i : ℕ) (r : (c : S.Call) → Except S.Failure (S.Answer c))
  /-- Worker `i` dies. -/
  | stop (i : ℕ)
  /-- The outside changes. -/
  | tick (t : M.Tick)

namespace Config

variable (M : System S O)

/-- Worker `i` goes on with `p`; a worker with nothing left is recorded as gone. -/
def resume (c : Config S O) (i : ℕ) (p : Program S Unit) (w : World S O) : Config S O where
  world := if p.finished then ⟨w.store, M.retire i w.outside⟩ else w
  workers := c.workers.set i p

/-- The world after worker `i` commits the store `s`. -/
def committed (w : World S O) (i : ℕ) (tag : Option S.Tag) (s : S.Store) : World S O :=
  ⟨s, M.observe i tag w.store s w.outside⟩

/-- The pool after one event, or `none` when the event cannot happen. -/
def fire (c : Config S O) : Event M → Option (Config S O)
  | .spawn op => some { c with workers := c.workers ++ [M.program op] }
  | .commit i =>
      match c.workers[i]? with
      | some (.atomic tag f k) =>
          match f c.world.store with
          | .ok (b, s) => some (c.resume M i (k (.ok b)) (committed M c.world i tag s))
          | .error e => some (c.resume M i (k (.error e)) c.world)
      | _ => none
  | .abort i e =>
      match c.workers[i]? with
      | some (.atomic _ _ k) =>
          if M.fault e then some (c.resume M i (k (.error e)) c.world) else none
      | _ => none
  | .answer i r =>
      match c.workers[i]? with
      | some (.call q k) =>
          (M.respond i q (r q) c.world.outside).map fun o =>
            c.resume M i (k (r q)) ⟨c.world.store, o⟩
      | _ => none
  | .stop i =>
      if i < c.workers.length then some (c.resume M i .halt c.world) else none
  | .tick t =>
      (M.advance t c.world.outside).map fun o => { c with world := ⟨c.world.store, o⟩ }

/-- The pool after a list of events. -/
def run (c : Config S O) : List (Event M) → Option (Config S O)
  | [] => some c
  | e :: es => (c.fire M e).bind fun c' => c'.run es

/-- The pool after a list of events that all pass a check. -/
def runChecked (check : Config S O → Event M → Bool) (c : Config S O) :
    List (Event M) → Option (Config S O)
  | [] => some c
  | e :: es => if check c e then (c.fire M e).bind fun c' => c'.runChecked check es else none

end Config

@[simp] theorem Config.resume_store (M : System S O) (c : Config S O) (i : ℕ)
    (p : Program S Unit) (w : World S O) : (c.resume M i p w).world.store = w.store := by
  unfold Config.resume
  split <;> rfl

/-- Only a commit changes the store, and what it leaves is what its transaction computes. -/
theorem Config.fire_store {M : System S O} {c c' : Config S O} {e : Event M}
    (h : c.fire M e = some c') : c'.world.store = c.world.store ∨
      ∃ i, e = .commit i ∧ ∃ (β : Type) (tag : Option S.Tag)
        (f : S.Store → Except S.Failure (β × S.Store)) (k : Except S.Failure β → Program S Unit)
        (b : β), c.workers[i]? = some (.atomic tag f k) ∧
          f c.world.store = .ok (b, c'.world.store) := by
  cases e with
  | spawn op =>
      obtain rfl : _ = c' := by simpa [Config.fire] using h
      exact .inl rfl
  | commit i =>
      simp only [Config.fire] at h
      split at h
      next β tag f k hp =>
        split at h
        next b s hf =>
          obtain rfl : _ = c' := by simpa using h
          exact .inr ⟨i, rfl, β, tag, f, k, b, hp, by rw [Config.resume_store]; exact hf⟩
        next e hf =>
          obtain rfl : _ = c' := by simpa using h
          exact .inl (Config.resume_store ..)
      next => simp at h
  | abort i e =>
      simp only [Config.fire] at h
      split at h
      · split at h
        · obtain rfl : _ = c' := by simpa using h
          exact .inl (Config.resume_store ..)
        · simp at h
      · simp at h
  | answer i r =>
      simp only [Config.fire] at h
      split at h
      · obtain ⟨o, -, rfl⟩ := Option.map_eq_some_iff.mp h
        exact .inl (Config.resume_store ..)
      · simp at h
  | stop i =>
      simp only [Config.fire] at h
      split at h
      · obtain rfl : _ = c' := by simpa using h
        exact .inl (Config.resume_store ..)
      · simp at h
  | tick t =>
      obtain ⟨o, -, rfl⟩ := Option.map_eq_some_iff.mp h
      exact .inl rfl

/-- A transaction that fails leaves the store alone. -/
theorem Config.fire_error {M : System S O} {c c' : Config S O} {i : ℕ} {β : Type}
    {tag : Option S.Tag} {f : S.Store → Except S.Failure (β × S.Store)}
    {k : Except S.Failure β → Program S Unit} {e : S.Failure}
    (hp : c.workers[i]? = some (.atomic tag f k)) (hf : f c.world.store = .error e)
    (h : c.fire M (.commit i) = some c') : c'.world.store = c.world.store := by
  obtain rfl : _ = c' := by simpa [Config.fire, hp, hf] using h
  exact Config.resume_store ..

/-- A worker that reads goes on with what the store holds. -/
theorem Config.fire_read {M : System S O} {c c' : Config S O} {i : ℕ} {α : Type} {g : S.Store → α}
    {f : α → Program S Unit} (hp : c.workers[i]? = some ((Program.read g).bind f))
    (h : c.fire M (.commit i) = some c') : c'.workers[i]? = some (f (g c.world.store)) := by
  have hread : c.workers[i]? = some (.atomic none (fun s => .ok (g s, s))
      fun r => (Program.ofExcept r).bind f) := hp
  have hlt : i < c.workers.length := (List.getElem?_eq_some_iff.mp hp).1
  obtain rfl : _ = c' := by simpa [Config.fire, hread] using h
  exact List.getElem?_set_self hlt

/-- The name of the transaction that worker `i` stands at. -/
def Config.standsAt (c : Config S O) (i : ℕ) : Option S.Tag :=
  match c.workers[i]? with
  | some (.atomic tag _ _) => tag
  | _ => none

/-- A worker that stands at a named transaction runs it next. -/
theorem Config.standsAt_eq_some {c : Config S O} {i : ℕ} {tag : S.Tag}
    (h : c.standsAt i = some tag) : ∃ (β : Type) (f : S.Store → Except S.Failure (β × S.Store))
      (k : Except S.Failure β → Program S Unit), c.workers[i]? = some (.atomic (some tag) f k) := by
  unfold Config.standsAt at h
  split at h
  next β tag' f k hp =>
    subst h
    exact ⟨_, f, k, hp⟩
  next => simp at h

/-! ## Policies and runs -/

/-- A condition on the commits and the answers of a run. -/
structure Policy (S : Signature) (O : Type) where
  /-- The condition on worker `i` committing a transaction between two worlds. -/
  commit : ℕ → Option S.Tag → World S O → World S O → Prop
  /-- The condition on worker `i` making a request between two worlds. -/
  call : ℕ → S.Call → World S O → World S O → Prop

/-- The policy that everything meets. -/
def Policy.free : Policy S O := ⟨fun _ _ _ _ => True, fun _ _ _ _ => True⟩

/-- An event meets a policy: what it commits or answers meets the policy's condition. -/
def Policy.Meets (P : Policy S O) (M : System S O) (c : Config S O) : Event M → Prop
  | .commit i => ∀ (β : Type) tag (f : S.Store → Except S.Failure (β × S.Store)) k b s,
      c.workers[i]? = some (.atomic tag f k) → f c.world.store = .ok (b, s) →
        P.commit i tag c.world (Config.committed M c.world i tag s)
  | .answer i r => ∀ q k o,
      c.workers[i]? = some (.call q k) → M.respond i q (r q) c.world.outside = some o →
        P.call i q c.world ⟨c.world.store, o⟩
  | _ => True

/-- The pools that runs from `c₀` reach when every event meets the policy `P`. -/
inductive Reaches (M : System S O) (P : Policy S O) (c₀ : Config S O) : Config S O → Prop
  /-- The run with no event. -/
  | start : Reaches M P c₀ c₀
  /-- One more event. -/
  | next {c c' : Config S O} (e : Event M) :
      Reaches M P c₀ c → P.Meets M c e → c.fire M e = some c' → Reaches M P c₀ c'

/-- Every event meets the free policy. -/
theorem Policy.free_meets (M : System S O) (c : Config S O) (e : Event M) :
    Policy.free.Meets M c e := by
  cases e <;> simp [Policy.Meets, Policy.free]

/-- An event that meets a policy meets every weaker one. -/
theorem Policy.Meets.mono {P Q : Policy S O} {M : System S O} {c : Config S O} {e : Event M}
    (h : P.Meets M c e) (hcommit : ∀ i tag w w', P.commit i tag w w' → Q.commit i tag w w')
    (hcall : ∀ i q w w', P.call i q w w' → Q.call i q w w') : Q.Meets M c e := by
  cases e with
  | commit i => exact fun β tag f k b s hp hf => hcommit _ _ _ _ (h β tag f k b s hp hf)
  | answer i r => exact fun q k o hp ho => hcall _ _ _ _ (h q k o hp ho)
  | spawn op | abort i e | stop i | tick t => trivial

/-- A run that meets a policy meets every weaker one. -/
theorem Reaches.mono {M : System S O} {P Q : Policy S O} {c₀ c : Config S O}
    (h : Reaches M P c₀ c) (hcommit : ∀ i tag w w', P.commit i tag w w' → Q.commit i tag w w')
    (hcall : ∀ i q w w', P.call i q w w' → Q.call i q w w') : Reaches M Q c₀ c := by
  induction h with
  | start => exact .start
  | next e _ hmeets hfire ih => exact .next e ih (hmeets.mono hcommit hcall) hfire

/-- Two runs in a row are a run. -/
theorem Reaches.trans {M : System S O} {P : Policy S O} {c₀ c₁ c₂ : Config S O}
    (h₁ : Reaches M P c₀ c₁) (h₂ : Reaches M P c₁ c₂) : Reaches M P c₀ c₂ := by
  induction h₂ with
  | start => exact h₁
  | next e _ hP hfire ih => exact .next e ih hP hfire

/-- A list of events that can happen one after the other is a run. -/
theorem Reaches.of_run {M : System S O} {c c' : Config S O} {es : List (Event M)}
    (h : c.run M es = some c') : Reaches M Policy.free c c' := by
  induction es generalizing c with
  | nil =>
      obtain rfl : c = c' := by simpa [Config.run] using h
      exact .start
  | cons e es ih =>
      obtain ⟨c₁, hfire, hrun⟩ := Option.bind_eq_some_iff.mp h
      exact (Reaches.next e .start (Policy.free_meets M c e) hfire).trans (ih hrun)

/-- A list of events that pass a check for a policy is a run that meets the policy. -/
theorem Reaches.of_runChecked {M : System S O} {P : Policy S O}
    {check : Config S O → Event M → Bool} {c c' : Config S O} {es : List (Event M)}
    (hcheck : ∀ c e, check c e = true → P.Meets M c e)
    (h : c.runChecked M check es = some c') : Reaches M P c c' := by
  induction es generalizing c with
  | nil =>
      obtain rfl : c = c' := by simpa [Config.runChecked] using h
      exact .start
  | cons e es ih =>
      unfold Config.runChecked at h
      split at h
      next hpass =>
        obtain ⟨c₁, hfire, hrun⟩ := Option.bind_eq_some_iff.mp h
        exact (Reaches.next e .start (hcheck c e hpass) hfire).trans (ih hrun)
      next => simp at h

/-! ## What a run leaves behind -/

/-- What a function of two stores says about every event of a run, in order. -/
def Config.trace {α : Type} (M : System S O) (f : S.Store → S.Store → List α) (c : Config S O) :
    List (Event M) → List α
  | [] => []
  | e :: es =>
      match c.fire M e with
      | some c' => f c.world.store c'.world.store ++ c'.trace M f es
      | none => []

/-- A record in the store that grows with every event by what the event is worth is the trace of
the run. -/
theorem Config.trace_of_steps {α : Type} {M : System S O} {P : Policy S O}
    {check : Config S O → Event M → Bool} (hcheck : ∀ c e, check c e = true → P.Meets M c e)
    {g : S.Store → List α} {f : S.Store → S.Store → List α} {c₀ : Config S O}
    (hstep : ∀ c c' e, Reaches M P c₀ c → check c e = true → c.fire M e = some c' →
      g c'.world.store = g c.world.store ++ f c.world.store c'.world.store)
    {c c' : Config S O} {es : List (Event M)} (hc : Reaches M P c₀ c)
    (h : c.runChecked M check es = some c') :
    g c'.world.store = g c.world.store ++ c.trace M f es := by
  induction es generalizing c with
  | nil =>
      obtain rfl : c = c' := by simpa [Config.runChecked] using h
      simp [Config.trace]
  | cons e es ih =>
      unfold Config.runChecked at h
      split at h
      next hpass =>
        obtain ⟨c₁, hfire, hrun⟩ := Option.bind_eq_some_iff.mp h
        have hrest := ih (.next e hc (hcheck c e hpass) hfire) hrun
        rw [hrest, hstep c c₁ e hc hpass hfire, Config.trace, hfire, List.append_assoc]
      next => simp at h

/-! ## A worker alone -/

/-- Run a program with no one else around; it gets stuck at a request. -/
def Program.alone {α : Type} : Program S α → S.Store → Option (Except S.Failure α × S.Store)
  | pure a, s => some (.ok a, s)
  | throw e, s => some (.error e, s)
  | halt, _ => none
  | atomic _ f k, s =>
      match f s with
      | .ok (b, s') => (k (.ok b)).alone s'
      | .error e => (k (.error e)).alone s
  | call _ _, _ => none

namespace Program

variable {α β : Type} {p : Program S α} {f : α → Program S β} {s s' : S.Store} {a : α}

/-- A program that returns is followed by the program that its value chooses. -/
theorem alone_bind (h : p.alone s = some (.ok a, s')) : (p >>= f).alone s = (f a).alone s' := by
  induction p generalizing s with
  | pure b =>
      obtain ⟨rfl, rfl⟩ : b = a ∧ s = s' := by simpa [alone] using h
      rfl
  | throw e => simp [alone] at h
  | halt => simp [alone] at h
  | atomic tag t k ih =>
      simp only [bind_eq, bind, alone] at h ⊢
      split <;> simp_all
  | call c k ih => simp [alone] at h

/-- A program that fails is followed by nothing. -/
theorem alone_bind_error {e : S.Failure} (h : p.alone s = some (.error e, s')) :
    (p >>= f).alone s = some (.error e, s') := by
  induction p generalizing s with
  | pure b => simp [alone] at h
  | throw e' =>
      obtain ⟨rfl, rfl⟩ : e' = e ∧ s = s' := by simpa [alone] using h
      rfl
  | halt => simp [alone] at h
  | atomic tag t k ih =>
      simp only [bind_eq, bind, alone] at h ⊢
      split <;> simp_all
  | call c k ih => simp [alone] at h

/-- A program that fails is followed by its handler. -/
theorem alone_handle {g : S.Failure → Program S α} {e : S.Failure}
    (h : p.alone s = some (.error e, s')) : (p.handle g).alone s = (g e).alone s' := by
  induction p generalizing s with
  | pure b => simp [alone] at h
  | throw e' =>
      obtain ⟨rfl, rfl⟩ : e' = e ∧ s = s' := by simpa [alone] using h
      rfl
  | halt => simp [alone] at h
  | atomic tag t k ih =>
      simp only [handle, alone] at h ⊢
      split <;> simp_all
  | call c k ih => simp [alone] at h

/-- A program that returns needs no handler. -/
theorem alone_handle_ok {g : S.Failure → Program S α} (h : p.alone s = some (.ok a, s')) :
    (p.handle g).alone s = some (.ok a, s') := by
  induction p generalizing s with
  | pure b => exact h
  | throw e => simp [alone] at h
  | halt => simp [alone] at h
  | atomic tag t k ih =>
      simp only [handle, alone] at h ⊢
      split <;> simp_all
  | call c k ih => simp [alone] at h

@[simp] theorem alone_pure : (Pure.pure a : Program S α).alone s = some (.ok a, s) := rfl

@[simp] theorem alone_read (g : S.Store → α) :
    (Program.read g : Program S α).alone s = some (.ok (g s), s) := rfl

@[simp] theorem alone_ofExcept (r : Except S.Failure α) :
    (Program.ofExcept r : Program S α).alone s = some (r, s) := by
  cases r <;> rfl

end Program

end Interleaving
