import MailHub.Interleaving.Fairness
import MailHub.Offline.Sync

/-!
# The pass slot

The controller serializes its passes without a lock: a caller of `sync` waits in a loop while the
slot holds the promise of a pass, starts a pass of its own once the slot is empty, and empties the
slot after its pass has settled. Each event here is one synchronous stretch, from one `await` to the
next, and continuations that are ready resume in any order.
-/

namespace MailHub.Offline

open Interleaving

variable {ε : Type}

/-! ## The controller -/

/-- What a call of `sync` awaits, or how it ended; passes are numbered as they start. -/
inductive SyncCall (ε : Type)
  /-- `await this.pass.catch(() => undefined)` -/
  | waits (pass : ℕ)
  /-- `await run` -/
  | runs (pass : ℕ)
  /-- The call returned the report of a pass, or threw what the pass threw. -/
  | done (pass : ℕ) (outcome : Except ε SyncReport)

/-- A caller of `sync`. -/
structure SyncCaller (ε : Type) where
  /-- How many passes had started before the call. -/
  calledAt : ℕ
  call : SyncCall ε

/-- The passes of one controller and its callers. -/
structure PassSlot (ε : Type) where
  /-- The pass whose promise the slot holds. -/
  pass : Option ℕ
  /-- Every pass that started, with its outcome once it settled. -/
  passes : List (Option (Except ε SyncReport))
  callers : List (SyncCaller ε)

/-- What happens at a controller. -/
inductive PassEvent (ε : Type)
  /-- Somebody calls `sync`. -/
  | call
  /-- A running pass returns or throws. -/
  | settle (pass : ℕ) (outcome : Except ε SyncReport)
  /-- The continuation of a caller resumes. -/
  | resume (caller : ℕ)

namespace PassSlot

/-- The controller before the first call. -/
def idle : PassSlot ε := ⟨none, [], []⟩

/-- Whether a pass is running. -/
def Active (p : ℕ) (c : PassSlot ε) : Prop := c.passes[p]? = some none

/-- How a pass settled. -/
def outcomeOf (p : ℕ) (c : PassSlot ε) : Option (Except ε SyncReport) := c.passes[p]?.join

/-- The head of the loop, up to the next `await`: wait for the pass in the slot, or start a pass
and put it there. -/
def enter (c : PassSlot ε) : SyncCall ε × PassSlot ε :=
  match c.pass with
  | some pass => (.waits pass, c)
  | none =>
      (.runs c.passes.length,
        { c with pass := some c.passes.length, passes := c.passes ++ [none] })

/-- The stretch of a caller from the promise that it awaits, once that is settled. -/
def resume (i : ℕ) (c : PassSlot ε) : Option (PassSlot ε) := do
  let caller ← c.callers[i]?
  match caller.call with
  | .waits p =>
      -- What the pass of another caller came to does not matter, a failure included.
      let _ ← c.outcomeOf p
      let entered := c.enter
      some { entered.2 with callers := entered.2.callers.set i { caller with call := entered.1 } }
  | .runs p =>
      let outcome ← c.outcomeOf p
      some { c with
        pass := if c.pass = some p then none else c.pass
        callers := c.callers.set i { caller with call := .done p outcome } }
  | .done .. => none

/-- The promise of a running pass settles. -/
def settle (p : ℕ) (outcome : Except ε SyncReport) (c : PassSlot ε) : Option (PassSlot ε) :=
  match c.passes[p]? with
  | some none => some { c with passes := c.passes.set p (some outcome) }
  | _ => none

/-- The stretch of a new call up to its first `await`. -/
def sync (c : PassSlot ε) : PassSlot ε :=
  let entered := c.enter
  { entered.2 with callers := entered.2.callers ++ [⟨c.passes.length, entered.1⟩] }

/-- One event, when it can happen. -/
def step (c : PassSlot ε) : PassEvent ε → Option (PassSlot ε)
  | .call => some c.sync
  | .settle p outcome => c.settle p outcome
  | .resume i => c.resume i

/-! ## What an event does -/

/-- Where caller `i` is, who called after `k` passes had started. -/
def At (i k : ℕ) (call : SyncCall ε) (c : PassSlot ε) : Prop := c.callers[i]? = some ⟨k, call⟩

/-- Whether caller `i`, who called after `k` passes, may be at the head of the loop: the call is
new, or the pass that the caller waited for settled. -/
def Enters (i k : ℕ) (c : PassSlot ε) : Prop :=
  (c.callers[i]? = none ∧ k = c.passes.length) ∨ ∃ p, c.At i k (.waits p)

/-- Only the call of caller `i` changed. -/
def Placed (i k : ℕ) (call : SyncCall ε) (c c' : PassSlot ε) : Prop :=
  ∀ j, c'.callers[j]? = if j = i then some ⟨k, call⟩ else c.callers[j]?

/-- The four things that can happen at a controller. -/
inductive Moves (c : PassSlot ε) : PassSlot ε → Prop
  /-- A caller finds a pass in the slot. -/
  | waited {c' : PassSlot ε} {i k p : ℕ} (henters : c.Enters i k) (hslot : c.pass = some p)
      (hpass : c'.pass = some p) (hpasses : c'.passes = c.passes)
      (hplaced : Placed i k (.waits p) c c') : Moves c c'
  /-- A caller finds the slot empty and starts a pass. -/
  | started {c' : PassSlot ε} {i k : ℕ} (henters : c.Enters i k) (hslot : c.pass = none)
      (hpass : c'.pass = some c.passes.length) (hpasses : c'.passes = c.passes ++ [none])
      (hplaced : Placed i k (.runs c.passes.length) c c') : Moves c c'
  /-- A pass settles. -/
  | settled {c' : PassSlot ε} {p : ℕ} {outcome : Except ε SyncReport} (hactive : c.Active p)
      (hpass : c'.pass = c.pass) (hpasses : c'.passes = c.passes.set p (some outcome))
      (hcallers : c'.callers = c.callers) : Moves c c'
  /-- The caller of a settled pass is done. -/
  | finished {c' : PassSlot ε} {i k p : ℕ} {outcome : Except ε SyncReport}
      (hcaller : c.At i k (.runs p)) (houtcome : c.outcomeOf p = some outcome)
      (hpass : c'.pass = if c.pass = some p then none else c.pass)
      (hpasses : c'.passes = c.passes) (hplaced : Placed i k (.done p outcome) c c') : Moves c c'

variable {c c' : PassSlot ε} {i j k l p q : ℕ} {outcome : Except ε SyncReport}

theorem placed_set {call : SyncCall ε} {old : SyncCaller ε} (hi : c.callers[i]? = some old)
    (hcallers : c'.callers = c.callers.set i ⟨k, call⟩) : Placed i k call c c' := by
  intro j
  have hlt : i < c.callers.length := (List.getElem?_eq_some_iff.mp hi).1
  rw [hcallers, List.getElem?_set]
  by_cases hj : j = i
  · rw [if_pos hj.symm, if_pos hj, if_pos hlt]
  · rw [if_neg (Ne.symm hj), if_neg hj]

theorem placed_append {call : SyncCall ε} (hcallers : c'.callers = c.callers ++ [⟨k, call⟩]) :
    Placed c.callers.length k call c c' := by
  intro j
  rw [hcallers, List.getElem?_append]
  by_cases hj : j = c.callers.length
  · subst hj
    rw [if_neg (Nat.lt_irrefl _), if_pos rfl, Nat.sub_self]
    rfl
  · rw [if_neg hj]
    by_cases hlt : j < c.callers.length
    · rw [if_pos hlt]
    · have hpast : [(⟨k, call⟩ : SyncCaller ε)].length ≤ j - c.callers.length := by
        rw [List.length_singleton]
        omega
      rw [if_neg hlt, List.getElem?_eq_none hpast, List.getElem?_eq_none (by omega)]

/-- A caller at the head of the loop waits for the pass in the slot or starts one. -/
theorem moves_enter (henters : c.Enters i k) (hpass : c'.pass = c.enter.2.pass)
    (hpasses : c'.passes = c.enter.2.passes) (hplaced : Placed i k c.enter.1 c c') :
    Moves c c' := by
  unfold enter at hpass hpasses hplaced
  cases hslot : c.pass with
  | some p =>
      rw [hslot] at hpass hpasses hplaced
      exact .waited henters hslot (hpass.trans hslot) hpasses hplaced
  | none =>
      rw [hslot] at hpass hpasses hplaced
      exact .started henters hslot hpass hpasses hplaced

/-- Entering leaves the callers alone. -/
theorem enter_callers (c : PassSlot ε) : c.enter.2.callers = c.callers := by
  unfold enter
  cases c.pass <;> rfl

/-- Nothing else happens. -/
theorem moves_of_step {e : PassEvent ε} (h : c.step e = some c') : Moves c c' := by
  cases e with
  | call =>
      obtain rfl : c.sync = c' := Option.some.inj h
      refine moves_enter (.inl ⟨List.getElem?_eq_none le_rfl, rfl⟩) rfl rfl (placed_append ?_)
      unfold sync
      dsimp only
      rw [enter_callers]
  | settle p outcome =>
      have hsettle : c.settle p outcome = some c' := h
      unfold settle at hsettle
      split at hsettle
      next hactive =>
        obtain rfl := Option.some.inj hsettle
        exact .settled hactive rfl rfl rfl
      next => cases hsettle
  | resume i =>
      unfold step resume at h
      obtain ⟨⟨k, call⟩, hcaller, h⟩ := Option.bind_eq_some_iff.mp h
      cases call with
      | waits p =>
          obtain ⟨-, -, h⟩ := Option.bind_eq_some_iff.mp h
          obtain rfl := Option.some.inj h
          refine moves_enter (.inr ⟨p, hcaller⟩) rfl rfl (placed_set hcaller ?_)
          dsimp only
          rw [enter_callers]
      | runs p =>
          obtain ⟨outcome, houtcome, h⟩ := Option.bind_eq_some_iff.mp h
          obtain rfl := Option.some.inj h
          exact .finished hcaller houtcome rfl rfl (placed_set hcaller rfl)
      | done p outcome => cases h

/-! ## The invariant -/

/-- What holds of a controller at any moment. -/
structure Sound (c : PassSlot ε) : Prop where
  /-- The slot holds the latest pass, whose caller has not come back from it. -/
  slot : ∀ p, c.pass = some p →
    p + 1 = c.passes.length ∧ ∃ i k, c.At i k (.runs p)
  /-- A running pass is in the slot. -/
  active : ∀ p, c.Active p → c.pass = some p
  /-- So is a pass whose caller has not come back, and it started after the call. -/
  runs : ∀ i k p, c.At i k (.runs p) → c.pass = some p ∧ k ≤ p
  /-- One caller at most has a pass of its own. -/
  alone : ∀ i j k l p q, c.At i k (.runs p) → c.At j l (.runs q) →
    i = j
  /-- A waiter waits for a pass that started. -/
  waits : ∀ i k p, c.At i k (.waits p) →
    p < c.passes.length ∧ k ≤ c.passes.length
  /-- A call that ended did so with the outcome of a pass that started after it. -/
  done : ∀ i k p outcome, c.At i k (.done p outcome) →
    k ≤ p ∧ c.outcomeOf p = some outcome

theorem outcomeOf_eq_some_iff : c.outcomeOf p = some outcome ↔ c.passes[p]? = some (some outcome) := by
  unfold outcomeOf
  exact Option.join_eq_some_iff

/-- A pass that started either runs or has settled. -/
theorem active_or_settled (hp : p < c.passes.length) :
    c.Active p ∨ ∃ outcome, c.outcomeOf p = some outcome := by
  cases hpass : c.passes[p] with
  | none => exact .inl (List.getElem?_eq_some_iff.mpr ⟨hp, hpass⟩)
  | some outcome =>
      exact .inr ⟨outcome, outcomeOf_eq_some_iff.mpr (List.getElem?_eq_some_iff.mpr ⟨hp, hpass⟩)⟩

/-- A settled pass does not run. -/
theorem not_active_of_outcomeOf (h : c.outcomeOf p = some outcome) : ¬ c.Active p := by
  intro hactive
  rw [outcomeOf_eq_some_iff, hactive] at h
  cases h

/-- A caller is at one place. -/
theorem At.unique {call call' : SyncCall ε} (h : c.At i k call) (h' : c.At i l call') :
    k = l ∧ call = call' := by
  unfold At at h h'
  rw [h] at h'
  cases h'
  exact ⟨rfl, rfl⟩

/-- Whoever is at the head of the loop has no pass. -/
theorem Enters.not_runs (h : c.Enters i k) : ¬ c.At i l (.runs q) := by
  intro hruns
  rcases h with ⟨hnone, -⟩ | ⟨p, hwaits⟩
  · unfold At at hruns
    rw [hnone] at hruns
    cases hruns
  · exact absurd (hwaits.unique hruns).2 nofun

theorem Placed.self {call : SyncCall ε} (h : Placed i k call c c') : c'.At i k call := by
  unfold At
  rw [h i, if_pos rfl]

theorem Placed.other {call call' : SyncCall ε} (h : Placed i k call c c') (hj : j ≠ i)
    (hat : c.At j l call') : c'.At j l call' := by
  unfold At
  rw [h j, if_neg hj]
  exact hat

/-- A caller of the new state is the one that was placed or one of the old state. -/
theorem Placed.cases {call call' : SyncCall ε} (h : Placed i k call c c')
    (hj : c'.At j l call') : (j = i ∧ l = k ∧ call' = call) ∨ (j ≠ i ∧ c.At j l call') := by
  by_cases hji : j = i
  · subst hji
    obtain ⟨rfl, rfl⟩ := h.self.unique hj
    exact .inl ⟨rfl, rfl, rfl⟩
  · unfold At at hj
    rw [h j, if_neg hji] at hj
    exact .inr ⟨hji, hj⟩

theorem Enters.calledAt_le (h : c.Enters i k) (hs : Sound c) : k ≤ c.passes.length := by
  rcases h with ⟨-, rfl⟩ | ⟨p, hwaits⟩
  · exact le_rfl
  · exact (hs.waits i k p hwaits).2

theorem sound_idle : Sound (idle : PassSlot ε) where
  slot _ h := by cases h
  active _ h := by cases h
  runs _ _ _ h := by cases h
  alone _ _ _ _ _ _ h := by cases h
  waits _ _ _ h := by cases h
  done _ _ _ _ h := by cases h

/-- A caller that finds a pass in the slot waits for a pass that started. -/
theorem sound_waited (hs : Sound c) (henters : c.Enters i k) (hslot : c.pass = some p)
    (hpass : c'.pass = some p) (hpasses : c'.passes = c.passes)
    (hplaced : Placed i k (.waits p) c c') : Sound c' := by
  have hruns : ∀ {j l q}, c'.At j l (.runs q) → c.At j l (.runs q) := by
    intro j l q hj
    rcases hplaced.cases hj with ⟨-, -, hcall⟩ | ⟨-, hold⟩
    · cases hcall
    · exact hold
  refine ⟨?_, ?_, ?_, ?_, ?_, ?_⟩
  · intro q hq
    rw [hpass] at hq
    obtain rfl := Option.some.inj hq
    obtain ⟨hlast, j, l, hj⟩ := hs.slot p hslot
    have hne : j ≠ i := fun hji => henters.not_runs (hji ▸ hj)
    exact ⟨hpasses ▸ hlast, j, l, hplaced.other hne hj⟩
  · intro q hq
    unfold Active at hq
    rw [hpasses] at hq
    rw [hpass, ← hslot]
    exact hs.active q hq
  · intro j l q hj
    rw [hpass, ← hslot]
    exact hs.runs j l q (hruns hj)
  · intro j j' l l' q q' hj hj'
    exact hs.alone j j' l l' q q' (hruns hj) (hruns hj')
  · intro j l q hj
    rw [hpasses]
    rcases hplaced.cases hj with ⟨-, rfl, hcall⟩ | ⟨-, hold⟩
    · cases hcall
      have hlast := (hs.slot p hslot).1
      exact ⟨by omega, henters.calledAt_le hs⟩
    · exact hs.waits j l q hold
  · intro j l q outcome hj
    unfold outcomeOf
    rw [hpasses]
    rcases hplaced.cases hj with ⟨-, -, hcall⟩ | ⟨-, hold⟩
    · cases hcall
    · exact hs.done j l q outcome hold

/-- A caller that finds the slot empty starts the only pass that runs. -/
theorem sound_started (hs : Sound c) (henters : c.Enters i k) (hslot : c.pass = none)
    (hpass : c'.pass = some c.passes.length) (hpasses : c'.passes = c.passes ++ [none])
    (hplaced : Placed i k (.runs c.passes.length) c c') : Sound c' := by
  have hlength : c'.passes.length = c.passes.length + 1 := by
    rw [hpasses, List.length_append, List.length_singleton]
  -- With an empty slot nobody has a pass.
  have hruns : ∀ {j l q}, c'.At j l (.runs q) →
      j = i ∧ l = k ∧ q = c.passes.length := by
    intro j l q hj
    rcases hplaced.cases hj with ⟨hji, hlk, hcall⟩ | ⟨-, hold⟩
    · cases hcall
      exact ⟨hji, hlk, rfl⟩
    · have htaken := (hs.runs j l q hold).1
      rw [hslot] at htaken
      cases htaken
  refine ⟨?_, ?_, ?_, ?_, ?_, ?_⟩
  · intro q hq
    rw [hpass] at hq
    obtain rfl := Option.some.inj hq
    exact ⟨hlength.symm, i, k, hplaced.self⟩
  · intro q hq
    rw [hpass]
    unfold Active at hq
    rw [hpasses] at hq
    by_cases hlt : q < c.passes.length
    · rw [List.getElem?_append_left hlt] at hq
      have htaken := hs.active q hq
      rw [hslot] at htaken
      cases htaken
    · have hle := (List.getElem?_eq_some_iff.mp hq).1
      rw [List.length_append, List.length_singleton] at hle
      congr 1
      omega
  · intro j l q hj
    obtain ⟨-, rfl, rfl⟩ := hruns hj
    exact ⟨hpass, henters.calledAt_le hs⟩
  · intro j j' l l' q q' hj hj'
    exact (hruns hj).1.trans (hruns hj').1.symm
  · intro j l q hj
    rcases hplaced.cases hj with ⟨-, -, hcall⟩ | ⟨-, hold⟩
    · cases hcall
    · have hwaits := hs.waits j l q hold
      omega
  · intro j l q outcome hj
    rcases hplaced.cases hj with ⟨-, -, hcall⟩ | ⟨-, hold⟩
    · cases hcall
    · obtain ⟨hle, houtcome⟩ := hs.done j l q outcome hold
      rw [outcomeOf_eq_some_iff] at houtcome ⊢
      have hlt := (List.getElem?_eq_some_iff.mp houtcome).1
      rw [hpasses, List.getElem?_append_left hlt]
      exact ⟨hle, houtcome⟩

/-- Settling a pass changes no outcome. -/
theorem outcomeOf_settled (hactive : c.Active p)
    (hpasses : c'.passes = c.passes.set p (some outcome)) {outcome' : Except ε SyncReport}
    (h : c.outcomeOf q = some outcome') : c'.outcomeOf q = some outcome' := by
  have hne : p ≠ q := by
    rintro rfl
    exact not_active_of_outcomeOf h hactive
  rw [outcomeOf_eq_some_iff] at h ⊢
  rw [hpasses, List.getElem?_set, if_neg hne]
  exact h

theorem sound_settled (hs : Sound c) (hactive : c.Active p) (hpass : c'.pass = c.pass)
    (hpasses : c'.passes = c.passes.set p (some outcome)) (hcallers : c'.callers = c.callers) :
    Sound c' := by
  have hlength : c'.passes.length = c.passes.length := by rw [hpasses, List.length_set]
  have hat : ∀ {j l} {call : SyncCall ε}, c'.At j l call ↔ c.At j l call := by
    intro j l call
    unfold At
    rw [hcallers]
  refine ⟨?_, ?_, ?_, ?_, ?_, ?_⟩
  · simp only [hpass, hlength, hat]
    exact hs.slot
  · intro q hq
    rw [hpass]
    unfold Active at hq
    rw [hpasses, List.getElem?_set] at hq
    split at hq
    next hpq => exact hpq ▸ hs.active p hactive
    next => exact hs.active q hq
  · simp only [hpass, hat]
    exact hs.runs
  · simp only [hat]
    exact hs.alone
  · simp only [hlength, hat]
    exact hs.waits
  · intro j l q outcome' hj
    obtain ⟨hle, houtcome⟩ := hs.done j l q outcome' (hat.mp hj)
    exact ⟨hle, outcomeOf_settled hactive hpasses houtcome⟩

/-- The caller that comes back from its pass empties the slot, and nobody else has a pass. -/
theorem sound_finished (hs : Sound c) (hcaller : c.At i k (.runs p))
    (houtcome : c.outcomeOf p = some outcome)
    (hpass : c'.pass = if c.pass = some p then none else c.pass) (hpasses : c'.passes = c.passes)
    (hplaced : Placed i k (.done p outcome) c c') : Sound c' := by
  obtain ⟨hslot, hle⟩ := hs.runs i k p hcaller
  have hnone : c'.pass = none := by rw [hpass, if_pos hslot]
  have hruns : ∀ {j l q}, ¬ c'.At j l (.runs q) := by
    intro j l q hj
    rcases hplaced.cases hj with ⟨-, -, hdone⟩ | ⟨hne, hold⟩
    · cases hdone
    · exact hne (hs.alone j i l k q p hold hcaller)
  refine ⟨?_, ?_, ?_, ?_, ?_, ?_⟩
  · intro q hq
    rw [hnone] at hq
    cases hq
  · intro q hq
    unfold Active at hq
    rw [hpasses] at hq
    have hpq := hs.active q hq
    rw [hslot] at hpq
    obtain rfl := Option.some.inj hpq
    exact absurd hq (not_active_of_outcomeOf houtcome)
  · intro j l q hj
    exact absurd hj hruns
  · intro j j' l l' q q' hj
    exact absurd hj hruns
  · intro j l q hj
    rw [hpasses]
    rcases hplaced.cases hj with ⟨-, -, hdone⟩ | ⟨-, hold⟩
    · cases hdone
    · exact hs.waits j l q hold
  · intro j l q outcome' hj
    unfold outcomeOf
    rw [hpasses]
    rcases hplaced.cases hj with ⟨-, rfl, hdone⟩ | ⟨-, hold⟩
    · cases hdone
      exact ⟨hle, houtcome⟩
    · exact hs.done j l q outcome' hold

/-- Every event keeps the invariant. -/
theorem sound_step {e : PassEvent ε} (hs : Sound c) (h : c.step e = some c') : Sound c' := by
  cases moves_of_step h with
  | waited henters hslot hpass hpasses hplaced =>
      exact sound_waited hs henters hslot hpass hpasses hplaced
  | started henters hslot hpass hpasses hplaced =>
      exact sound_started hs henters hslot hpass hpasses hplaced
  | settled hactive hpass hpasses hcallers => exact sound_settled hs hactive hpass hpasses hcallers
  | finished hcaller houtcome hpass hpasses hplaced =>
      exact sound_finished hs hcaller houtcome hpass hpasses hplaced

/-- The invariant holds after any events in any order. -/
theorem sound_reachable (h : Reachable step (idle : PassSlot ε) c) : Sound c :=
  h.invariant sound_idle fun _ _ _ hs hstep => sound_step hs hstep

/-! ## Later passes -/

/-- Whether caller `i` waits. -/
def Waits (i : ℕ) (c : PassSlot ε) : Prop := ∃ k p, c.At i k (.waits p)

/-- Whether caller `i` has a pass in the slot. -/
def Holds (i : ℕ) (c : PassSlot ε) : Prop := ∃ k p, c.At i k (.runs p)

/-- The caller of a settled pass can resume, and empties the slot. -/
theorem resume_holder (hs : Sound c) (hcaller : c.At i k (.runs p))
    (houtcome : c.outcomeOf p = some outcome) :
    ∃ c', c.step (.resume i) = some c' ∧ c'.pass = none := by
  have hslot := (hs.runs i k p hcaller).1
  unfold At at hcaller
  unfold step resume
  simp only [hcaller, houtcome, Option.bind_eq_bind, Option.bind_some]
  exact ⟨_, rfl, if_pos hslot⟩

/-- A waiter that finds the slot empty starts a pass as soon as it resumes. -/
theorem resume_waiter (hs : Sound c) (hslot : c.pass = none) (hwaits : c.Waits i) :
    ∃ c', c.step (.resume i) = some c' ∧ c'.passes.length = c.passes.length + 1 := by
  obtain ⟨k, p, hcaller⟩ := hwaits
  obtain ⟨hlt, -⟩ := hs.waits i k p hcaller
  rcases active_or_settled hlt with hactive | ⟨outcome, houtcome⟩
  · have htaken := hs.active p hactive
    rw [hslot] at htaken
    cases htaken
  · unfold At at hcaller
    unfold step resume enter
    simp only [hcaller, houtcome, hslot, Option.bind_eq_bind, Option.bind_some]
    exact ⟨_, rfl, by rw [List.length_append, List.length_singleton]⟩

/-- A caller that has no pass yet waits on, unless it starts one. -/
theorem waits_or_starts {e : PassEvent ε} (h : c.step e = some c') (hwaits : c.Waits i) :
    c'.Waits i ∨ c.passes.length < c'.passes.length := by
  obtain ⟨k, p, hcaller⟩ := hwaits
  cases moves_of_step h with
  | @waited j l q henters hslot hpass hpasses hplaced =>
      by_cases hij : i = j
      · subst hij
        exact .inl ⟨l, q, hplaced.self⟩
      · exact .inl ⟨k, p, hplaced.other hij hcaller⟩
  | started henters hslot hpass hpasses hplaced =>
      refine .inr ?_
      rw [hpasses, List.length_append, List.length_singleton]
      omega
  | settled hactive hpass hpasses hcallers =>
      refine .inl ⟨k, p, ?_⟩
      unfold At
      rw [hcallers]
      exact hcaller
  | @finished j l q outcome hdone houtcome hpass hpasses hplaced =>
      have hij : i ≠ j := by
        rintro rfl
        exact absurd (hcaller.unique hdone).2 nofun
      exact .inl ⟨k, p, hplaced.other hij hcaller⟩

/-- After `n` passes, all of them settled, caller `i` waits for another one. -/
structure Stalled (i n : ℕ) (c : PassSlot ε) : Prop where
  sound : Sound c
  length : c.passes.length = n
  idle : ∀ p, ¬ c.Active p
  waits : c.Waits i

/-- While no pass starts, callers wait and finish, and nothing else happens. -/
theorem Stalled.step {e : PassEvent ε} (hstalled : Stalled i n c) (h : c.step e = some c') :
    Stalled i n c' ∨ n < c'.passes.length := by
  rcases waits_or_starts h hstalled.waits with hwaits | hlt
  · have hpasses : c'.passes = c.passes ∨ c.passes.length < c'.passes.length := by
      cases moves_of_step h with
      | waited henters hslot hpass hpasses hplaced => exact .inl hpasses
      | started henters hslot hpass hpasses hplaced =>
          refine .inr ?_
          rw [hpasses, List.length_append, List.length_singleton]
          omega
      | settled hactive hpass hpasses hcallers => exact absurd hactive (hstalled.idle _)
      | finished hcaller houtcome hpass hpasses hplaced => exact .inl hpasses
    rcases hpasses with hsame | hlt
    · refine .inl ⟨sound_step hstalled.sound h, by rw [hsame, hstalled.length], ?_, hwaits⟩
      intro p hp
      unfold Active at hp
      rw [hsame] at hp
      exact hstalled.idle p hp
    · exact .inr (hstalled.length ▸ hlt)
  · exact .inr (hstalled.length ▸ hlt)

/-- The caller in the slot stays there until it empties the slot. -/
theorem holds_step {e : PassEvent ε} (hstalled : Stalled i n c) (hholds : c.Holds j)
    (h : c.step e = some c') : c'.Holds j ∨ c'.pass = none := by
  obtain ⟨k, p, hcaller⟩ := hholds
  have hslot := (hstalled.sound.runs j k p hcaller).1
  cases moves_of_step h with
  | waited henters _ hpass hpasses hplaced =>
      refine .inl ⟨k, p, hplaced.other ?_ hcaller⟩
      rintro rfl
      exact henters.not_runs hcaller
  | started henters hempty hpass hpasses hplaced =>
      rw [hslot] at hempty
      cases hempty
  | settled hactive hpass hpasses hcallers => exact absurd hactive (hstalled.idle _)
  | finished hdone houtcome hpass hpasses hplaced =>
      have hholder := (hstalled.sound.runs _ _ _ hdone).1
      rw [if_pos hholder] at hpass
      exact .inr hpass

/-- With an empty slot and no pass running, whoever moves starts a pass. -/
theorem starts_of_empty {e : PassEvent ε} (hstalled : Stalled i n c) (hempty : c.pass = none)
    (h : c.step e = some c') : n < c'.passes.length := by
  cases moves_of_step h with
  | waited henters hslot hpass hpasses hplaced =>
      rw [hempty] at hslot
      cases hslot
  | started henters hslot hpass hpasses hplaced =>
      rw [hpasses, List.length_append, List.length_singleton, hstalled.length]
      omega
  | settled hactive hpass hpasses hcallers => exact absurd hactive (hstalled.idle _)
  | finished hdone houtcome hpass hpasses hplaced =>
      have hslot := (hstalled.sound.runs _ _ _ hdone).1
      rw [hempty] at hslot
      cases hslot

/-- The events that the runtime owes: every promise that settled resumes its callers. -/
def IsResumption (e : PassEvent ε) : Prop := ∃ i, e = .resume i

variable {x : Execution step (idle : PassSlot ε)} {t : ℕ}

/-- The caller of a settled pass empties the slot, unless somebody already started a pass. -/
theorem slot_emptied (hfair : x.Fair IsResumption) (hstalled : Stalled i n (x.state t))
    (hholds : (x.state t).Holds j) :
    ∃ u ≥ t, (Stalled i n (x.state u) ∧ (x.state u).pass = none) ∨
      n < (x.state u).passes.length := by
  refine hfair.progress (e := .resume j) (p := fun c => Stalled i n c ∧ c.Holds j)
    (q := fun c => (Stalled i n c ∧ c.pass = none) ∨ n < c.passes.length) ⟨j, rfl⟩ ?_ ?_
    ⟨hstalled, hholds⟩
  · rintro c e c' ⟨hstalled, hholds⟩ hstep
    rcases hstalled.step hstep with hstalled' | hlt
    · rcases holds_step hstalled hholds hstep with hholds' | hempty
      · exact .inl ⟨hstalled', hholds'⟩
      · exact .inr (.inl ⟨hstalled', hempty⟩)
    · exact .inr (.inr hlt)
  · rintro c ⟨hstalled, k, p, hcaller⟩
    have hslot := (hstalled.sound.runs j k p hcaller).1
    have hlt : p < c.passes.length := by
      have hlast := (hstalled.sound.slot p hslot).1
      omega
    rcases active_or_settled hlt with hactive | ⟨outcome, houtcome⟩
    · exact absurd hactive (hstalled.idle p)
    · obtain ⟨c', hstep, hempty⟩ := resume_holder hstalled.sound hcaller houtcome
      refine ⟨c', hstep, ?_⟩
      rcases hstalled.step hstep with hstalled' | hlt
      · exact .inl ⟨hstalled', hempty⟩
      · exact .inr hlt

/-- Once every pass has settled, a waiting caller makes another one start. -/
theorem pass_starts (hfair : x.Fair IsResumption) (hstalled : Stalled i n (x.state t)) :
    ∃ u ≥ t, n < (x.state u).passes.length := by
  have hempty : ∃ u ≥ t, (Stalled i n (x.state u) ∧ (x.state u).pass = none) ∨
      n < (x.state u).passes.length := by
    cases hslot : (x.state t).pass with
    | none => exact ⟨t, le_rfl, .inl ⟨hstalled, hslot⟩⟩
    | some p =>
        obtain ⟨-, j, k, hcaller⟩ := hstalled.sound.slot p hslot
        exact slot_emptied hfair hstalled ⟨k, p, hcaller⟩
  obtain ⟨u, hu, ⟨hstalled', hslot⟩ | hlt⟩ := hempty
  · obtain ⟨v, hv, hlt⟩ : ∃ v ≥ u, n < (x.state v).passes.length := by
      refine hfair.progress (e := .resume i) (p := fun c => Stalled i n c ∧ c.pass = none)
        (q := fun c => n < c.passes.length) ⟨i, rfl⟩ ?_ ?_ ⟨hstalled', hslot⟩
      · rintro c e c' ⟨hstalled, hempty⟩ hstep
        exact .inr (starts_of_empty hstalled hempty hstep)
      · rintro c ⟨hstalled, hempty⟩
        obtain ⟨c', hstep, -⟩ := resume_waiter hstalled.sound hempty hstalled.waits
        exact ⟨c', hstep, starts_of_empty hstalled hempty hstep⟩
    exact ⟨v, hu.trans hv, hlt⟩
  · exact ⟨u, hu, hlt⟩

/-- How a pass settled never changes. -/
theorem outcomeOf_step {e : PassEvent ε} (h : c.step e = some c')
    (houtcome : c.outcomeOf p = some outcome) : c'.outcomeOf p = some outcome := by
  cases moves_of_step h with
  | waited _ _ _ hpasses _ =>
      unfold outcomeOf at houtcome ⊢
      rw [hpasses]
      exact houtcome
  | started _ _ _ hpasses _ =>
      rw [outcomeOf_eq_some_iff] at houtcome ⊢
      rw [hpasses, List.getElem?_append_left (List.getElem?_eq_some_iff.mp houtcome).1]
      exact houtcome
  | settled hactive _ hpasses _ => exact outcomeOf_settled hactive hpasses houtcome
  | finished _ _ _ hpasses _ =>
      unfold outcomeOf at houtcome ⊢
      rw [hpasses]
      exact houtcome

theorem outcomeOf_later (houtcome : (x.state t).outcomeOf p = some outcome) {u : ℕ} (hu : u ≥ t) :
    (x.state u).outcomeOf p = some outcome := by
  induction u, hu using Nat.le_induction with
  | base => exact houtcome
  | succ u hu ih =>
      cases hevent : x.event u with
      | none =>
          rw [x.rests u hevent]
          exact ih
      | some e => exact outcomeOf_step (x.follows u e hevent) ih

/-- A new call starts a pass, or leaves the passes alone and waits. -/
theorem sync_waits_or_starts (c : PassSlot ε) :
    ((∃ i, c.sync.Waits i) ∧ c.sync.passes = c.passes) ∨
      c.sync.passes.length = c.passes.length + 1 := by
  cases hslot : c.pass with
  | some q =>
      refine .inl ⟨⟨c.callers.length, c.passes.length, q, ?_⟩, ?_⟩
      · unfold At sync enter
        simp only [hslot, List.getElem?_concat_length]
      · unfold sync enter
        simp only [hslot]
  | none =>
      refine .inr ?_
      unfold sync enter
      simp only [hslot, List.length_append, List.length_singleton]

/-! ## The guarantee -/

/-- What the slot guarantees at any moment. -/
structure Serialized (c : PassSlot ε) : Prop where
  /-- At most one pass runs. -/
  exclusive : ∀ p q, c.Active p → c.Active q → p = q
  /-- A call that returned or threw did so with the outcome of a pass that started after it. -/
  fresh : ∀ caller ∈ c.callers, ∀ p outcome, caller.call = .done p outcome →
    caller.calledAt ≤ p ∧ c.outcomeOf p = some outcome
  /-- When no pass runs, however the last one ended, the slot is empty or the caller in it can
  resume and empties it. -/
  unblocked : (∀ p, ¬ c.Active p) →
    c.pass = none ∨ ∃ i c', c.step (.resume i) = some c' ∧ c'.pass = none

theorem Sound.serialized (hs : Sound c) : Serialized c where
  exclusive p q hp hq := by
    have hslot := hs.active p hp
    rw [hs.active q hq] at hslot
    exact (Option.some.inj hslot).symm
  fresh caller hcaller p outcome hdone := by
    obtain ⟨i, hi⟩ := List.getElem?_of_mem hcaller
    obtain ⟨k, call⟩ := caller
    subst hdone
    exact hs.done i k p outcome hi
  unblocked hidle := by
    cases hslot : c.pass with
    | none => exact .inl rfl
    | some p =>
        obtain ⟨hlast, i, k, hcaller⟩ := hs.slot p hslot
        have hlt : p < c.passes.length := by omega
        rcases active_or_settled hlt with hactive | ⟨outcome, houtcome⟩
        · exact absurd hactive (hidle p)
        · obtain ⟨c', hstep, hempty⟩ := resume_holder hs hcaller houtcome
          exact .inr ⟨i, c', hstep, hempty⟩

/-- The latest pass has settled, so none runs. -/
theorem idle_of_last_settled (hs : Sound c) (houtcome : c.outcomeOf p = some outcome)
    (hlast : c.passes.length ≤ p + 1) : ∀ q, ¬ c.Active q := by
  intro q hq
  have hlt := (List.getElem?_eq_some_iff.mp (outcomeOf_eq_some_iff.mp houtcome)).1
  have hlatest := (hs.slot q (hs.active q hq)).1
  obtain rfl : q = p := by omega
  exact not_active_of_outcomeOf houtcome hq

/-- Replay passes never overlap. For any callers of one controller, any order in which their
continuations resume and any outcomes of the passes: at most one pass runs at a time, every call
that ends does so with the outcome of a pass that started after it, and a pass that failed never
keeps later ones from starting: once every caller whose promise settled eventually resumes, each
call and each waiting caller after the failure is followed by a later pass. -/
theorem passes_serialized :
    (∀ c : PassSlot ε, Reachable step idle c → Serialized c) ∧
      ∀ x : Execution step (idle : PassSlot ε), x.Fair IsResumption →
        ∀ t p e, (x.state t).outcomeOf p = some (.error e) →
          ∀ u ≥ t, (x.event u = some .call ∨ ∃ i, (x.state u).Waits i) →
            ∃ v ≥ u, p + 1 < (x.state v).passes.length := by
  refine ⟨fun c hc => (sound_reachable hc).serialized, ?_⟩
  intro x hfair t p e hfailed u hu hasked
  have houtcome := outcomeOf_later hfailed hu
  have hs := sound_reachable (x.reachable u)
  by_cases hlater : p + 1 < (x.state u).passes.length
  · exact ⟨u, le_rfl, hlater⟩
  · have hlt := (List.getElem?_eq_some_iff.mp (outcomeOf_eq_some_iff.mp houtcome)).1
    have hlength : (x.state u).passes.length = p + 1 := by omega
    have hidle := idle_of_last_settled hs houtcome hlength.le
    rcases hasked with hcall | ⟨i, hwaits⟩
    · have hnext : (x.state u).sync = x.state (u + 1) := Option.some.inj (x.follows u _ hcall)
      rcases sync_waits_or_starts (x.state u) with ⟨⟨i, hwaits⟩, hsame⟩ | hstarts
      · rw [hnext] at hwaits hsame
        have hstalled : Stalled i (p + 1) (x.state (u + 1)) := by
          refine ⟨sound_reachable (x.reachable (u + 1)), by rw [hsame, hlength], ?_, hwaits⟩
          intro q hq
          unfold Active at hq
          rw [hsame] at hq
          exact hidle q hq
        obtain ⟨v, hv, hmore⟩ := pass_starts hfair hstalled
        exact ⟨v, by omega, hmore⟩
      · rw [hnext, hlength] at hstarts
        exact ⟨u + 1, by omega, by omega⟩
    · exact pass_starts hfair ⟨hs, hlength, hidle, hwaits⟩

/-- Two overlapping calls: the first pass throws, the waiter resumes once too early, and the second
pass returns. -/
def overlappingCalls : List (PassEvent String) :=
  [.call, .call, .settle 0 (.error "the connection was lost"), .resume 1, .resume 0, .resume 1,
    .settle 1 (.ok ⟨0, 0, false, false⟩), .resume 1]

/-- The run of the two calls is fair, and the waiter gets its pass after the failure. -/
theorem passes_serialized_sample :
    let x := Execution.ofEvents step idle overlappingCalls
    x.Fair IsResumption ∧ Serialized (x.state 8) ∧
      (∃ i, (x.state 3).Waits i) ∧ ∃ v ≥ 3, 1 < (x.state v).passes.length := by
  intro x
  have hfair : x.Fair IsResumption := by
    refine Execution.fair_ofEvents ?_
    rintro _ ⟨i, rfl⟩
    match i with
    | 0 | 1 | i + 2 => rfl
  have hwaits : ∃ i, (x.state 3).Waits i := ⟨1, 1, 0, rfl⟩
  exact ⟨hfair, passes_serialized.1 _ (x.reachable 8), hwaits,
    passes_serialized.2 x hfair 3 0 _ rfl 3 le_rfl (.inr hwaits)⟩

/-! ## The slot as a lock -/

/-- What happens to the holder of a lock. -/
inductive LockStep : Option ℕ → Option ℕ → Prop
  | stays (holder : Option ℕ) : LockStep holder holder
  | acquired (i : ℕ) : LockStep none (some i)
  | released (i : ℕ) : LockStep (some i) none

/-- Who has a pass in the slot. -/
def HeldBy (holder : Option ℕ) (c : PassSlot ε) : Prop := ∀ i, holder = some i ↔ c.Holds i

/-- The loop makes a lock of the slot: it is taken only while nobody holds it, and released by its
holder only. This is what the requests for the slot stand for. -/
theorem lockStep_of_step {e : PassEvent ε} {holder : Option ℕ} (hs : Sound c)
    (hheld : HeldBy holder c) (h : c.step e = some c') :
    ∃ holder', HeldBy holder' c' ∧ LockStep holder holder' := by
  cases moves_of_step h with
  | @waited i k p henters hslot hpass hpasses hplaced =>
      refine ⟨holder, fun j => (hheld j).trans ⟨?_, ?_⟩, .stays holder⟩
      · rintro ⟨l, q, hj⟩
        have hne : j ≠ i := by
          rintro rfl
          exact henters.not_runs hj
        exact ⟨l, q, hplaced.other hne hj⟩
      · rintro ⟨l, q, hj⟩
        rcases hplaced.cases hj with ⟨-, -, hcall⟩ | ⟨-, hold⟩
        · cases hcall
        · exact ⟨l, q, hold⟩
  | @started i k henters hslot hpass hpasses hplaced =>
      have hnobody : ∀ j, ¬ c.Holds j := by
        rintro j ⟨l, q, hj⟩
        have htaken := (hs.runs j l q hj).1
        rw [hslot] at htaken
        cases htaken
      obtain rfl : holder = none := by
        cases holder with
        | none => rfl
        | some j => exact absurd ((hheld j).mp rfl) (hnobody j)
      refine ⟨some i, fun j => ⟨?_, ?_⟩, .acquired i⟩
      · rintro hij
        obtain rfl := Option.some.inj hij
        exact ⟨k, _, hplaced.self⟩
      · rintro ⟨l, q, hj⟩
        rcases hplaced.cases hj with ⟨rfl, -, -⟩ | ⟨-, hold⟩
        · rfl
        · exact absurd ⟨l, q, hold⟩ (hnobody j)
  | settled hactive hpass hpasses hcallers =>
      refine ⟨holder, fun j => (hheld j).trans ?_, .stays holder⟩
      unfold Holds At
      rw [hcallers]
  | @finished i k p outcome hcaller houtcome hpass hpasses hplaced =>
      obtain rfl : holder = some i := (hheld i).mpr ⟨k, p, hcaller⟩
      refine ⟨none, fun j => ⟨nofun, ?_⟩, .released i⟩
      rintro ⟨l, q, hj⟩
      rcases hplaced.cases hj with ⟨-, -, hcall⟩ | ⟨hne, hold⟩
      · cases hcall
      · exact absurd (hs.alone j i l k q p hold hcaller) hne

end PassSlot

end MailHub.Offline
