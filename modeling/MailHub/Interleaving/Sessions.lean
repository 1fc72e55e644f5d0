import Mathlib.Logic.Function.Basic
import MailHub.Interleaving.Roles
import MailHub.Interleaving.Transaction

/-!
# Sessions under a row lock

A transaction that is open for several statements sees what others commit in between. A session
takes one lock first, keeps its own writes to itself, and hands them over when it commits; it gives
the lock back when it commits, is rolled back or dies. When everything that its statements read or
write is protected by the lock, the session has the effect of one transaction at its commit, and a
call that fails has no effect at all.
-/

namespace Interleaving

variable {σ K ε N R P α β : Type}

/-! ## Sessions -/

/-- The statements of one open transaction, each an exchange with the database of its own. -/
inductive Session (σ ε : Type) (α : Type) : Type 1
  /-- Commit, with the value of the transaction. -/
  | done (a : α) : Session σ ε α
  /-- Roll back. -/
  | refuse (e : ε) : Session σ ε α
  /-- Run one statement and go on with its value. -/
  | statement {β : Type} (t : StateT σ (Except ε) β) (next : β → Session σ ε α) : Session σ ε α

namespace Session

/-- Sequential composition. -/
def bind : Session σ ε α → (α → Session σ ε β) → Session σ ε β
  | done a, g => g a
  | refuse e, _ => refuse e
  | statement t next, g => statement t fun b => (next b).bind g

instance : Monad (Session σ ε) where
  pure := done
  bind := Session.bind

instance : MonadExceptOf ε (Session σ ε) where
  throw := refuse
  tryCatch s _ := s

/-- One statement. -/
def one (t : StateT σ (Except ε) α) : Session σ ε α := statement t done

/-- A value that was computed without the database. -/
def lift : Except ε α → Session σ ε α
  | .ok a => done a
  | .error e => refuse e

/-- The session as a transaction: all its statements at one moment. -/
def atomically : Session σ ε α → StateT σ (Except ε) α
  | done a => pure a
  | refuse e => throw e
  | statement t next => t >>= fun b => (next b).atomically

@[simp] theorem atomically_pure (a : α) :
    (pure a : Session σ ε α).atomically = (pure a : StateT σ (Except ε) α) := rfl

@[simp] theorem atomically_throw (e : ε) :
    (throw e : Session σ ε α).atomically = (throw e : StateT σ (Except ε) α) := rfl

@[simp] theorem atomically_one (t : StateT σ (Except ε) α) : (one t).atomically = t := by
  show (t >>= fun a => pure a) = t
  simp

@[simp] theorem atomically_lift (r : Except ε α) :
    (lift r : Session σ ε α).atomically = (liftM r : StateT σ (Except ε) α) := by
  cases r with
  | ok a => rfl
  | error e => rfl

/-- A sequence of sessions is a sequence of transactions. -/
@[simp] theorem atomically_bind (s : Session σ ε α) (g : α → Session σ ε β) :
    (s >>= g).atomically = s.atomically >>= fun a => (g a).atomically := by
  induction s with
  | done a => rfl
  | refuse e => rfl
  | statement t next ih =>
      have hnext : ∀ b, ((next b).bind g).atomically =
          (next b).atomically >>= fun a => (g a).atomically := ih
      show (t >>= fun b => ((next b).bind g).atomically) =
        (t >>= fun b => (next b).atomically) >>= fun a => (g a).atomically
      simp only [hnext, bind_assoc]

@[simp] theorem atomically_ite {c : Prop} [Decidable c] {s t : Session σ ε α} :
    (if c then s else t).atomically = if c then s.atomically else t.atomically := by
  split <;> rfl

end Session

/-! ## Local statements -/

/-- A statement is local to a part of the store when that part determines its value and what it
makes of the part. -/
structure LocalTo (part : σ → P) (t : StateT σ (Except ε) α) : Prop where
  /-- Where the part is the same, a successful statement succeeds likewise. -/
  same : ∀ s s' a s₁, part s = part s' → t.run s = .ok (a, s₁) →
    ∃ s₁', t.run s' = .ok (a, s₁') ∧ part s₁ = part s₁'

/-- A statement that reads a value of the part is local to it. -/
theorem LocalTo.of_read {part : σ → P} {t : StateT σ (Except ε) α} (f : P → Except ε α)
    (h : ∀ s, t.run s = (f (part s)).map fun a => (a, s)) : LocalTo part t := by
  refine ⟨fun s s' a s₁ hpart hrun => ?_⟩
  rw [h s] at hrun
  cases hvalue : f (part s) with
  | error e =>
      rw [hvalue] at hrun
      cases hrun
  | ok b =>
      rw [hvalue] at hrun
      obtain ⟨rfl, rfl⟩ := Prod.mk.inj (Except.ok.inj hrun)
      refine ⟨s', ?_, hpart⟩
      rw [h s', ← hpart, hvalue]
      rfl

/-- All statements of a session are local to a part of the store. -/
def Session.LocalTo (part : σ → P) : Session σ ε α → Prop
  | .done _ | .refuse _ => True
  | .statement t next => Interleaving.LocalTo part t ∧ ∀ b, (next b).LocalTo part

namespace Session.LocalTo

variable {part : σ → P} {s : Session σ ε α}

theorem pure (a : α) : (Pure.pure a : Session σ ε α).LocalTo part := trivial

theorem throw (e : ε) : (MonadExcept.throw e : Session σ ε α).LocalTo part := trivial

theorem one {t : StateT σ (Except ε) α} (h : Interleaving.LocalTo part t) :
    (Session.one t).LocalTo part := ⟨h, fun _ => trivial⟩

theorem lift (r : Except ε α) : (Session.lift r : Session σ ε α).LocalTo part := by
  cases r <;> trivial

theorem bind {g : α → Session σ ε β} (h : s.LocalTo part) (hg : ∀ a, (g a).LocalTo part) :
    (s >>= g).LocalTo part := by
  induction s with
  | done a => exact hg a
  | refuse e => trivial
  | statement t next ih => exact ⟨h.1, fun b => ih b (h.2 b)⟩

theorem ite {c : Prop} [Decidable c] {t : Session σ ε α} (hs : c → s.LocalTo part)
    (ht : ¬ c → t.LocalTo part) : (if c then s else t).LocalTo part := by
  split
  · exact hs ‹_›
  · exact ht ‹_›

end Session.LocalTo

/-! ## Calls -/

/-- The calls of a service that keeps its rows in one database. -/
structure Service (σ K ε N R : Type) where
  /-- What a call checks before it opens its transaction. -/
  enter : N → σ → Except ε Unit
  /-- The lock that its transaction takes first. -/
  key : N → K
  /-- The statements of its transaction. -/
  session : N → Session σ ε R
  /-- The failures that a statement may meet on its way to the database. -/
  fault : ε → Bool

/-- What a call asks of the lock manager. -/
inductive LockCall (K : Type)
  | lock (k : K)
  | rollback

/-- The moments of a call that leave a record. -/
inductive CallTag (ε N R : Type)
  /-- Its transaction commits. -/
  | commit (n : N) (a : R)
  /-- The caller gets its answer. -/
  | answer (n : N) (r : Except ε R)

/-- The signature of the calls of a service. -/
abbrev serviceSignature (σ K ε N R : Type) : Signature where
  Store := σ
  Failure := ε
  Tag := CallTag ε N R
  Call := LockCall K
  Answer _ := Unit

/-- The store after a statement; a statement that fails leaves it alone. -/
def after (t : StateT σ (Except ε) α) (s : σ) : σ :=
  match t.run s with
  | .ok (_, s') => s'
  | .error _ => s

/-- Roll back and fail. -/
def rollback (e : ε) : Program (serviceSignature σ K ε N R) R :=
  .call .rollback fun _ => .throw e

/-- The rest of an open transaction, which sees the committed store through its own writes. -/
def Session.statements (n : N) :
    Session σ ε R → (σ → σ) → Program (serviceSignature σ K ε N R) R
  | .done a, view => .atomic (some (.commit n a)) (fun s => .ok (a, view s)) fun
      | .ok a => .pure a
      | .error e => rollback e
  | .refuse e, _ => rollback e
  | .statement t next, view =>
      .atomic none (fun s => (t.run (view s)).map fun r => (r.1, s)) fun
        | .ok b => (next b).statements n (after t ∘ view)
        | .error e => rollback e

namespace Service

variable (V : Service σ K ε N R)

/-- The transaction of a call, behind its lock. -/
def transaction (n : N) : Program (serviceSignature σ K ε N R) R :=
  .call (.lock (V.key n)) fun
    | .ok () => (V.session n).statements n id
    | .error e => .throw e

/-- One call. -/
def call (n : N) : Program (serviceSignature σ K ε N R) R := do
  let checked ← Program.read (V.enter n)
  Program.ofExcept checked
  V.transaction n

/-- One call, and its answer to the caller. -/
def program (n : N) : Program (serviceSignature σ K ε N R) Unit := do
  let r ← (V.call n).attempt
  .atomic (some (.answer n r)) (fun s => .ok ((), s)) .ofExcept

end Service

/-! ## The system -/

/-- What the record of a run says. -/
inductive Entry (σ ε N R : Type)
  /-- Worker `i` committed its call, which took the store from one state to another. -/
  | committed (i : ℕ) (n : N) (a : R) (before after : σ)
  /-- Worker `i` got an answer. -/
  | answered (i : ℕ) (n : N) (r : Except ε R)

/-- The locks that are held, and the record of the run. -/
structure Ledger (σ K ε N R : Type) where
  locks : K → Option ℕ
  history : List (Entry σ ε N R)

/-- A worker gives its locks back. -/
def Ledger.release (i : ℕ) (o : Ledger σ K ε N R) : Ledger σ K ε N R :=
  { o with locks := fun k => if o.locks k = some i then none else o.locks k }

/-- A worker takes a lock that nobody else holds. -/
def Ledger.take [DecidableEq K] (i : ℕ) (k : K) (o : Ledger σ K ε N R) :
    Option (Ledger σ K ε N R) :=
  if o.locks k = none ∨ o.locks k = some i then
    some { o with locks := Function.update o.locks k (some i) }
  else none

/-- The calls of a service in any order, each with a lock of its own; a lock is waited for, and a
wait may end in a fault. -/
def Service.system [DecidableEq K] (V : Service σ K ε N R) :
    System (serviceSignature σ K ε N R) (Ledger σ K ε N R) where
  Op := N
  program := V.program
  Tick := Empty
  advance t := nomatch t
  respond i c r o :=
    match c, r with
    | .lock k, .ok () => o.take i k
    | .lock _, .error e => if V.fault e then some o else none
    | .rollback, .ok () => some (o.release i)
    | .rollback, .error _ => none
  fault := V.fault
  observe i tag s s' o :=
    match tag with
    | none => o
    | some (.commit n a) =>
        { o.release i with history := o.history ++ [.committed i n a s s'] }
    | some (.answer n r) => { o with history := o.history ++ [.answered i n r] }
  observe_read _ _ _ := rfl
  retire i o := o.release i

/-! ## Histories -/

/-- The worker that an entry is about. -/
def Entry.worker : Entry σ ε N R → ℕ
  | .committed i _ _ _ _ | .answered i _ _ => i

/-- What is recorded of a worker. -/
def Ledger.entries (i : ℕ) (o : Ledger σ K ε N R) : List (Entry σ ε N R) :=
  o.history.filter fun e => e.worker == i

/-- The store went from one state to another through the recorded commits, one after the other. -/
def Chained : σ → List (Entry σ ε N R) → σ → Prop
  | s, [], s' => s = s'
  | s, .committed _ _ _ before after :: h, s' => s = before ∧ Chained after h s'
  | s, .answered _ _ _ :: h, s' => Chained s h s'

theorem Chained.append {s₀ s s' : σ} {h h' : List (Entry σ ε N R)} (hs : Chained s₀ h s)
    (hs' : Chained s h' s') : Chained s₀ (h ++ h') s' := by
  induction h generalizing s₀ with
  | nil =>
      obtain rfl : s₀ = s := hs
      exact hs'
  | cons e h ih =>
      cases e with
      | committed i n a before after => exact ⟨hs.1, ih hs.2⟩
      | answered i n r => exact ih hs

/-- What a service may tell its callers: a call that returns committed its transaction once, and a
call that fails committed nothing. -/
def Told (h : List (Entry σ ε N R)) (i : ℕ) (n : N) : Except ε R → Prop
  | .ok a => ∃ s s', h.filter (fun e => e.worker == i) =
      [.committed i n a s s', .answered i n (.ok a)]
  | .error e => h.filter (fun e => e.worker == i) = [.answered i n (.error e)]

/-- The record of a run in which every call has the effect of one transaction. -/
structure Service.Serial (V : Service σ K ε N R) (I : σ → Prop) (s₀ : σ)
    (h : List (Entry σ ε N R)) (s : σ) : Prop where
  /-- The store is what the committed calls made of it. -/
  chained : Chained s₀ h s
  /-- Each commit is the whole transaction of its call, from the store that it found. -/
  committed : ∀ i n a s s', .committed i n a s s' ∈ h →
    I s ∧ (V.session n).atomically.run s = .ok (a, s')
  /-- Each answer says what happened. -/
  answered : ∀ i n r, .answered i n r ∈ h → Told h i n r
  /-- The invariant of the store holds. -/
  kept : I s

/-! ## Entries -/

variable {i : ℕ} {n : N}

theorem entries_append {o : Ledger σ K ε N R} {e : Entry σ ε N R} {o' : Ledger σ K ε N R}
    (h : o'.history = o.history ++ [e]) (j : ℕ) :
    o'.entries j = o.entries j ++ if e.worker = j then [e] else [] := by
  unfold Ledger.entries
  rw [h, List.filter_append, List.filter_cons, List.filter_nil]
  simp only [beq_iff_eq]

/-- What was told to one worker stays true when something is recorded of another. -/
theorem Told.append {h : List (Entry σ ε N R)} {e : Entry σ ε N R} {r : Except ε R}
    (ht : Told h i n r) (he : e.worker ≠ i) : Told (h ++ [e]) i n r := by
  have hsame : (h ++ [e]).filter (fun e => e.worker == i) = h.filter fun e => e.worker == i := by
    rw [List.filter_append, List.filter_cons, if_neg (by simpa using he), List.filter_nil,
      List.append_nil]
  cases r with
  | ok a =>
      obtain ⟨s, s', hs⟩ := ht
      exact ⟨s, s', hsame.trans hs⟩
  | error e' => exact hsame.trans ht

/-- Nothing was told to a worker of which nothing is recorded. -/
theorem ne_of_answered {h : List (Entry σ ε N R)} {j : ℕ} {m : N} {r : Except ε R}
    (hnone : h.filter (fun e => e.worker == i) = []) (hmem : .answered j m r ∈ h) : i ≠ j := by
  rintro rfl
  have hfound : Entry.answered i m r ∈ h.filter fun e => e.worker == i :=
    List.mem_filter.mpr ⟨hmem, by simp [Entry.worker]⟩
  rw [hnone] at hfound
  exact List.not_mem_nil hfound

/-- How a call of a worker ended: its transaction committed, or nothing is recorded. -/
def Ended (i : ℕ) (n : N) (o : Ledger σ K ε N R) : Except ε R → Prop
  | .ok a => ∃ s s', o.entries i = [.committed i n a s s']
  | .error _ => o.entries i = []

/-- A worker that is told how its call ended is told the truth. -/
theorem Ended.told {o : Ledger σ K ε N R} {r : Except ε R} (h : Ended i n o r) :
    Told (o.history ++ [.answered i n r]) i n r := by
  have hown : (o.history ++ [Entry.answered i n r]).filter (fun e => e.worker == i) =
      o.entries i ++ [.answered i n r] := by
    rw [List.filter_append, List.filter_cons, if_pos (by simp [Entry.worker]), List.filter_nil]
    rfl
  cases r with
  | ok a =>
      obtain ⟨s, s', hs⟩ := h
      exact ⟨s, s', by rw [hown, hs]; rfl⟩
  | error e =>
      have hnone : o.entries i = [] := h
      refine hown.trans ?_
      rw [hnone, List.nil_append]

/-! ## Protection -/

/-- The locks of a service protect what its transactions read and write. -/
structure Service.Protected (V : Service σ K ε N R) (part : K → σ → P) (I : σ → Prop) :
    Prop where
  /-- A transaction stays within the part that its lock protects. -/
  isLocal : ∀ n, (V.session n).LocalTo (part (V.key n))
  /-- It keeps the invariant and leaves the other parts alone. -/
  keeps : ∀ n s a s', I s → (V.session n).atomically.run s = .ok (a, s') →
    I s' ∧ ∀ k, k ≠ V.key n → part k s' = part k s

variable {V : Service σ K ε N R} {part : K → σ → P} {I : σ → Prop} {s₀ : σ}
  {w w' : World (serviceSignature σ K ε N R) (Ledger σ K ε N R)}

/-- A worker relies on its locks, on what they protect, and on its own record. -/
structure Holding (part : K → σ → P) (i : ℕ)
    (w w' : World (serviceSignature σ K ε N R) (Ledger σ K ε N R)) : Prop where
  locks : ∀ k, w.outside.locks k = some i →
    w'.outside.locks k = some i ∧ part k w'.store = part k w.store
  entries : w'.outside.entries i = w.outside.entries i

theorem Holding.refl : Holding part i w w := ⟨fun _ hk => ⟨hk, rfl⟩, rfl⟩

theorem Holding.trans {w₂ : World (serviceSignature σ K ε N R) (Ledger σ K ε N R)}
    (h : Holding part i w w') (h' : Holding part i w' w₂) : Holding part i w w₂ := by
  refine ⟨fun k hk => ?_, h'.entries.trans h.entries⟩
  obtain ⟨hheld, hpart⟩ := h.locks k hk
  obtain ⟨hheld', hpart'⟩ := h'.locks k hheld
  exact ⟨hheld', hpart'.trans hpart⟩

/-- Another worker that gives its locks back is no concern. -/
theorem holding_release {j : ℕ} (hij : i ≠ j) :
    Holding part i w ⟨w.store, w.outside.release j⟩ := by
  refine ⟨fun k hk => ⟨?_, rfl⟩, rfl⟩
  have hne : w.outside.locks k ≠ some j := by
    rw [hk]
    simpa using hij
  show (if w.outside.locks k = some j then none else w.outside.locks k) = some i
  rw [if_neg hne, hk]

variable [DecidableEq K]

/-- What the workers of a service rely on. -/
def lockDiscipline (V : Service σ K ε N R) (part : K → σ → P) (I : σ → Prop) (s₀ : σ) :
    Discipline V.system where
  inv w := V.Serial I s₀ w.outside.history w.store
  rely i w w' := Holding part i w w'
  assumes := .free
  ensures := .free
  rely_refl _ _ := .refl
  rely_trans _ _ _ _ h h' := h.trans h'
  ensures_read _ _ _ := trivial
  inv_tick _ t := nomatch t
  rely_tick _ _ t := nomatch t
  inv_retire _ _ hw := hw
  rely_retire _ _ _ _ hij := holding_release hij

/-! ## Open transactions -/

/-- Rolling back changes nothing but the locks of the worker. -/
theorem safe_rollback {e : ε} {Q : R → World (serviceSignature σ K ε N R) (Ledger σ K ε N R) → Prop}
    (hnone : w.outside.entries i = []) :
    Safe (lockDiscipline V part I s₀) i (rollback e) w Q fun _ w' => w'.outside.entries i = [] := by
  intro w' hr hi r o hresp _
  have hnone' : w'.outside.entries i = [] := hr.entries.trans hnone
  cases r with
  | error e' => cases hresp
  | ok u =>
      obtain rfl : w'.outside.release i = o := Option.some.inj hresp
      refine ⟨⟨hi, fun j hj => holding_release hj⟩, trivial, ?_⟩
      exact .throw fun w₂ hr₂ _ => hr₂.entries.trans hnone'

/-- A commit of the whole transaction is recorded, and leaves what other locks protect alone. -/
theorem keeps_commit (hV : V.Protected part I) {a : R} {s' : σ}
    (hi : V.Serial I s₀ w.outside.history w.store) (hlock : w.outside.locks (V.key n) = some i)
    (hnone : w.outside.entries i = [])
    (hrun : (V.session n).atomically.run w.store = .ok (a, s')) :
    (lockDiscipline V part I s₀).Keeps i w
      (Config.committed V.system w i (some (.commit n a)) s') := by
  obtain ⟨hkept, hothers⟩ := hV.keeps n w.store a s' hi.kept hrun
  refine ⟨⟨?_, fun j m b s₁ s₂ hmem => ?_, fun j m r hmem => ?_, hkept⟩, fun j hj => ⟨?_, ?_⟩⟩
  · exact hi.chained.append ⟨rfl, rfl⟩
  · rcases List.mem_append.mp hmem with hold | hnew
    · exact hi.committed j m b s₁ s₂ hold
    · cases List.mem_singleton.mp hnew
      exact ⟨hi.kept, hrun⟩
  · rcases List.mem_append.mp hmem with hold | hnew
    · exact (hi.answered j m r hold).append (ne_of_answered hnone hold)
    · cases List.mem_singleton.mp hnew
  · intro k hk
    have hne : k ≠ V.key n := by
      rintro rfl
      rw [hlock] at hk
      exact hj (Option.some.inj hk).symm
    have hreleased : Holding part j w ⟨w.store, w.outside.release i⟩ := holding_release hj
    exact ⟨(hreleased.locks k hk).1, hothers k hne⟩
  · refine (entries_append (o := w.outside) rfl j).trans ?_
    rw [if_neg (by exact fun h => hj h.symm), List.append_nil]

/-- An open transaction commits as a whole or not at all. The worker holds the lock, so whatever the
others commit, the whole transaction still comes down to what is left of it on the view. -/
theorem safe_statements (hV : V.Protected part I) {s : Session σ ε R} {view : σ → σ}
    (hlocal : s.LocalTo (part (V.key n))) (hlock : w.outside.locks (V.key n) = some i)
    (hnone : w.outside.entries i = [])
    (hview : ∀ db, part (V.key n) db = part (V.key n) w.store →
      (V.session n).atomically.run db = s.atomically.run (view db) ∧
        part (V.key n) (view db) = part (V.key n) (view w.store)) :
    Safe (lockDiscipline V part I s₀) i (s.statements n view) w
      (fun a w' => ∃ db db', w'.outside.entries i = [.committed i n a db db'])
      fun _ w' => w'.outside.entries i = [] := by
  induction s generalizing view w with
  | done a =>
      intro w' hr hi
      obtain ⟨hlock', hpart⟩ := hr.locks _ hlock
      have hnone' : w'.outside.entries i = [] := hr.entries.trans hnone
      refine ⟨fun e _ => safe_rollback hnone', fun e he => by simp at he, fun b db hok _ => ?_⟩
      obtain ⟨rfl, rfl⟩ : a = b ∧ view w'.store = db := by simpa using hok
      have hrun : (V.session n).atomically.run w'.store = .ok (a, view w'.store) :=
        (hview w'.store hpart).1
      refine ⟨keeps_commit hV hi hlock' hnone' hrun, trivial, .pure fun w₂ hr₂ _ => ?_⟩
      refine ⟨w'.store, view w'.store, hr₂.entries.trans ?_⟩
      refine (entries_append (o := w'.outside) rfl i).trans ?_
      rw [hnone']
      exact if_pos rfl
  | refuse e => exact safe_rollback hnone
  | statement t next ih =>
      unfold Session.statements
      intro w' hr hi
      obtain ⟨hlock', hpart⟩ := hr.locks _ hlock
      have hnone' : w'.outside.entries i = [] := hr.entries.trans hnone
      refine ⟨fun e _ => safe_rollback hnone', fun e _ => safe_rollback hnone',
        fun b db hok _ => ?_⟩
      obtain ⟨⟨b', s₁⟩, hstep, hpair⟩ := except_map_eq_ok.mp hok
      obtain ⟨rfl, rfl⟩ : b' = b ∧ w'.store = db := by simpa using hpair
      refine ⟨⟨hi, fun j _ => .refl⟩, trivial, ih b' (hlocal.2 b') hlock' hnone' fun db hdb => ?_⟩
      obtain ⟨hwhole, hsame⟩ := hview db (hdb.trans hpart)
      have hsame' : part (V.key n) (view w'.store) = part (V.key n) (view db) :=
        ((hview w'.store hpart).2.trans hsame.symm)
      obtain ⟨s₂, hstep', hpart'⟩ := hlocal.1.same _ _ _ _ hsame' hstep
      have hafter : after t (view db) = s₂ := by simp [after, hstep']
      have hafter' : after t (view w'.store) = s₁ := by simp [after, hstep]
      refine ⟨?_, ?_⟩
      · rw [hwhole]
        show (t >>= fun b => (next b).atomically).run (view db) =
          (next b').atomically.run (after t (view db))
        rw [hafter, StateT.run_bind, hstep']
        rfl
      · show part (V.key n) (after t (view db)) = part (V.key n) (after t (view w'.store))
        rw [hafter, hafter', hpart']

/-! ## Calls -/

/-- A transaction behind its lock commits as a whole or not at all. -/
theorem Service.safe_transaction (hV : V.Protected part I) (hnone : w.outside.entries i = []) :
    Safe (lockDiscipline V part I s₀) i (V.transaction n) w
      (fun a w' => ∃ db db', w'.outside.entries i = [.committed i n a db db'])
      fun _ w' => w'.outside.entries i = [] := by
  intro w' hr hi r o hresp _
  have hnone' : w'.outside.entries i = [] := hr.entries.trans hnone
  cases r with
  | error e =>
      obtain ⟨-, rfl⟩ : _ ∧ w'.outside = o := by simpa [Service.system] using hresp
      exact ⟨⟨hi, fun j _ => .refl⟩, trivial, .throw fun w₂ hr₂ _ => hr₂.entries.trans hnone'⟩
  | ok u =>
      have htake : w'.outside.take i (V.key n) = some o := hresp
      obtain ⟨hfree, hnew⟩ := Option.ite_none_right_eq_some.mp htake
      obtain rfl := Option.some.inj hnew
      refine ⟨⟨hi, fun j hj => ⟨fun k hk => ⟨?_, rfl⟩, rfl⟩⟩, trivial, ?_⟩
      · have hne : k ≠ V.key n := by
          rintro rfl
          rw [hk] at hfree
          simp at hfree
          exact hj hfree
        exact (Function.update_of_ne hne _ _).trans hk
      · exact safe_statements hV (hV.isLocal n) (Function.update_self _ _ _) hnone'
          fun db hdb => ⟨rfl, hdb⟩

/-- A call commits its transaction once and returns, or fails and has committed nothing. -/
theorem Service.safe_call (hV : V.Protected part I) (hnone : w.outside.entries i = []) :
    Safe (lockDiscipline V part I s₀) i (V.call n) w
      (fun a w' => ∃ db db', w'.outside.entries i = [.committed i n a db db'])
      fun _ w' => w'.outside.entries i = [] := by
  refine .bind (.read (fun w' hr _ => .pure fun w₂ hr₂ _ => ?_) fun _ w' _ hr _ =>
    hr.entries.trans hnone)
  have hnone₂ : w₂.outside.entries i = [] := hr₂.entries.trans (hr.entries.trans hnone)
  refine .bind (.ofExcept (fun _ _ w₃ hr₃ _ => ?_) fun _ _ w₃ hr₃ _ =>
    hr₃.entries.trans hnone₂)
  exact safe_transaction hV (hr₃.entries.trans hnone₂)

/-- The caller is told what happened. -/
theorem Service.safe_program (hV : V.Protected part I) (hnone : w.outside.entries i = []) :
    Safe (lockDiscipline V part I s₀) i (V.program n) w (fun _ _ => True) fun _ _ => True := by
  have hcall : Safe (lockDiscipline V part I s₀) i (V.call n).attempt w
      (fun r w' => Ended i n w'.outside r) fun _ _ => True := by
    refine .attempt ((safe_call hV hnone).mono ?_ ?_) (R := fun r w' => Ended i n w'.outside r)
    · rintro a w' - ⟨db, db', hentries⟩ w₂ hr₂ -
      exact ⟨db, db', hr₂.entries.trans hentries⟩
    · exact fun e w' _ hentries w₂ hr₂ _ => hr₂.entries.trans hentries
  refine .bind (hcall.mono (fun r w' _ hended => ?_) fun _ _ _ _ => trivial)
  intro w₁ hr₁ hi
  refine ⟨fun e _ => .throw fun _ _ _ => trivial, fun e he => by simp at he, fun b db hok _ => ?_⟩
  obtain ⟨-, rfl⟩ : () = b ∧ w₁.store = db := by simpa using hok
  have hended' : Ended i n w₁.outside r := by
    cases r with
    | ok a =>
        obtain ⟨db, db', hentries⟩ := hended
        exact ⟨db, db', hr₁.entries.trans hentries⟩
    | error e => exact hr₁.entries.trans hended
  refine ⟨⟨⟨?_, fun j m b s₁ s₂ hmem => ?_, fun j m r' hmem => ?_, hi.kept⟩, fun j hj => ?_⟩,
    trivial, .pure fun _ _ _ => trivial⟩
  · exact hi.chained.append rfl
  · rcases List.mem_append.mp hmem with hold | hnew
    · exact hi.committed j m b s₁ s₂ hold
    · cases List.mem_singleton.mp hnew
  · rcases List.mem_append.mp hmem with hold | hnew
    · refine (hi.answered j m r' hold).append fun heq => ?_
      obtain rfl : i = j := heq
      have hfound : .answered i m r' ∈ w₁.outside.entries i :=
        List.mem_filter.mpr ⟨hold, by simp [Entry.worker]⟩
      cases r with
      | ok a =>
          obtain ⟨db, db', hentries⟩ := hended'
          rw [hentries] at hfound
          cases List.mem_singleton.mp hfound
      | error e =>
          have hempty : w₁.outside.entries i = [] := hended'
          rw [hempty] at hfound
          exact List.not_mem_nil hfound
    · cases List.mem_singleton.mp hnew
      exact hended'.told
  · refine ⟨fun k hk => ⟨hk, rfl⟩, (entries_append (o := w₁.outside) rfl j).trans ?_⟩
    rw [if_neg (by exact fun h => hj h.symm), List.append_nil]

/-! ## Runs -/

/-- In every run of a service whose locks protect its rows, each call has the effect of one
transaction at its commit, each answer says what happened, and the invariant holds. -/
theorem Service.serial (hV : V.Protected part I)
    {c₀ c : Config (serviceSignature σ K ε N R) (Ledger σ K ε N R)} (hworkers : c₀.workers = [])
    (hhistory : c₀.world.outside.history = []) (hI : I c₀.world.store)
    (h : Reaches V.system .free c₀ c) :
    V.Serial I c₀.world.store c.world.outside.history c.world.store := by
  have hentries : ∀ i, c₀.world.outside.entries i = [] := fun i => by
    rw [Ledger.entries, hhistory, List.filter_nil]
  have h₀ : c₀.Sound (lockDiscipline V part I c₀.world.store) := by
    refine ⟨⟨?_, ?_, ?_, hI⟩, fun i p hp => by simp [hworkers] at hp⟩
    · rw [hhistory]
      rfl
    · simp [hhistory]
    · simp [hhistory]
  have hsound := Reaches.sound_fresh (D := lockDiscipline V part I c₀.world.store)
    (F := fun i w => w.outside.entries i = []) h h₀ hentries
    (fun i w w' hr hw => hr.entries.trans hw) fun n i w hw => safe_program hV hw
  exact hsound.inv

end Interleaving
