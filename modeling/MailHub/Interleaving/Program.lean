import Mathlib.Data.Nat.Notation

/-!
# Programs over a shared store

A service operation is a sequence of transactions on one shared store and of requests to the
outside, with pure computation in between. `Program` is the tree of such an operation: every
transaction and every request is a node of its own, so that other operations can run between any
two of them. The nodes carry no meaning yet; `Pool` runs many programs against one store.
-/

namespace Interleaving

/-! ## Signatures and programs -/

/-- What the programs of one system share: the store, the failures and the requests. -/
structure Signature where
  /-- The state that a transaction reads and writes. -/
  Store : Type
  /-- What a program throws. -/
  Failure : Type
  /-- Names of the transactions that a specification tells apart. -/
  Tag : Type
  /-- The requests to the outside. -/
  Call : Type
  /-- The answer that each request gets. -/
  Answer : Call → Type

/-- A program: a tree whose nodes are the points where other programs can interfere. -/
inductive Program (S : Signature) (α : Type) : Type 1
  /-- The program returns a value. -/
  | pure (a : α) : Program S α
  /-- The program fails. -/
  | throw (e : S.Failure) : Program S α
  /-- The program never comes back, as a process does that dies here. -/
  | halt : Program S α
  /-- One transaction: it commits a value and a store, or fails and leaves the store alone. -/
  | atomic {β : Type} (tag : Option S.Tag) (f : S.Store → Except S.Failure (β × S.Store))
      (k : Except S.Failure β → Program S α) : Program S α
  /-- One request to the outside. -/
  | call (c : S.Call) (k : Except S.Failure (S.Answer c) → Program S α) : Program S α

/-- A transaction: statements on the store that commit together or not at all. -/
abbrev Transaction (S : Signature) := StateT S.Store (Except S.Failure)

namespace Program

variable {S : Signature} {α β γ : Type}

/-- Sequential composition: the second program grows at the values of the first. -/
def bind : Program S α → (α → Program S β) → Program S β
  | pure a, g => g a
  | throw e, _ => throw e
  | halt, _ => halt
  | atomic tag f k, g => atomic tag f fun r => (k r).bind g
  | call c k, g => call c fun r => (k r).bind g

/-- Exception handling: the handler grows at the failures of the program. -/
def handle : Program S α → (S.Failure → Program S α) → Program S α
  | pure a, _ => pure a
  | throw e, h => h e
  | halt, _ => halt
  | atomic tag f k, h => atomic tag f fun r => (k r).handle h
  | call c k, h => call c fun r => (k r).handle h

/-- A program whose failure is a value. -/
def attempt (p : Program S α) : Program S (Except S.Failure α) :=
  (p.bind fun a => pure (.ok a)).handle fun e => pure (.error e)

/-- Run a program and then another one, whether the first one returns or fails. -/
def cleanup (p : Program S α) (q : Program S Unit) : Program S α :=
  (p.handle fun e => q.bind fun _ => throw e).bind fun a => q.bind fun _ => pure a

instance : Monad (Program S) where
  pure := Program.pure
  bind := Program.bind

instance : MonadExceptOf S.Failure (Program S) where
  throw := Program.throw
  tryCatch := Program.handle

/-- Return the value of an answer, or fail with its failure. -/
def ofExcept : Except S.Failure α → Program S α
  | .ok a => pure a
  | .error e => throw e

/-- Run one transaction. -/
def transaction (tag : Option S.Tag) (t : Transaction S α) : Program S α :=
  atomic tag t.run ofExcept

/-- Read the store, outside any larger transaction. -/
def read (f : S.Store → α) : Program S α :=
  atomic none (fun s => .ok (f s, s)) ofExcept

/-- Send one request and wait for its answer. -/
def request (c : S.Call) : Program S (S.Answer c) :=
  call c ofExcept

/-! ## Laws -/

@[simp] theorem pure_eq (a : α) : (Pure.pure a : Program S α) = .pure a := rfl

@[simp] theorem bind_eq (p : Program S α) (g : α → Program S β) : p >>= g = p.bind g := rfl

@[simp] theorem throw_eq (e : S.Failure) :
    (MonadExcept.throw e : Program S α) = .throw e := rfl

@[simp] theorem tryCatch_eq (p : Program S α) (h : S.Failure → Program S α) :
    tryCatch p h = p.handle h := rfl

@[simp] theorem pure_bind (a : α) (g : α → Program S β) : (pure a).bind g = g a := rfl

@[simp] theorem throw_bind (e : S.Failure) (g : α → Program S β) :
    (throw e : Program S α).bind g = throw e := rfl

@[simp] theorem halt_bind (g : α → Program S β) : (halt : Program S α).bind g = halt := rfl

/-- Returning the value of a program changes nothing. -/
@[simp] theorem bind_pure (p : Program S α) : p.bind pure = p := by
  induction p with
  | pure a => rfl
  | throw e => rfl
  | halt => rfl
  | atomic tag f k ih => simp only [bind, ih]
  | call c k ih => simp only [bind, ih]

/-- Sequential composition is associative. -/
theorem bind_assoc (p : Program S α) (g : α → Program S β) (h : β → Program S γ) :
    (p.bind g).bind h = p.bind fun a => (g a).bind h := by
  induction p with
  | pure a => rfl
  | throw e => rfl
  | halt => rfl
  | atomic tag f k ih => simp only [bind, ih]
  | call c k ih => simp only [bind, ih]

end Program

end Interleaving
