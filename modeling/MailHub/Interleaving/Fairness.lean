import Mathlib.Data.List.Basic
import Mathlib.Data.Nat.Init
import Mathlib.Tactic.Common

/-!
# Fair executions

A system whose events may be disabled is a partial step function. What holds at the start and is
kept by every step holds in every reachable state. An execution never ends: at each moment one event
happens, or nothing does. It is fair to an event that happens whenever it stays enabled, and the
rule of progress concludes from fairness that something comes about.
-/

namespace Interleaving

variable {σ ε : Type} {step : σ → ε → Option σ} {initial : σ}

/-! ## Reachable states -/

/-- The states that a system comes to. -/
inductive Reachable (step : σ → ε → Option σ) (initial : σ) : σ → Prop
  | start : Reachable step initial initial
  | next {s s' : σ} (e : ε) (h : Reachable step initial s) (hstep : step s e = some s') :
      Reachable step initial s'

/-- What holds at the start and is kept by every step holds in every reachable state. -/
theorem Reachable.invariant {inv : σ → Prop} {s : σ} (hstart : inv initial)
    (hstep : ∀ s e s', inv s → step s e = some s' → inv s') (h : Reachable step initial s) :
    inv s := by
  induction h with
  | start => exact hstart
  | next e _ hs ih => exact hstep _ e _ ih hs

/-! ## Executions -/

/-- A run without an end. -/
structure Execution (step : σ → ε → Option σ) (initial : σ) where
  /-- The state at each moment. -/
  state : ℕ → σ
  /-- The event at each moment, if any. -/
  event : ℕ → Option ε
  starts : state 0 = initial
  /-- Without an event nothing changes. -/
  rests : ∀ n, event n = none → state (n + 1) = state n
  follows : ∀ n e, event n = some e → step (state n) e = some (state (n + 1))

namespace Execution

variable {x : Execution step initial} {n : ℕ} {e : ε} {p q : σ → Prop}

/-- An execution passes through reachable states only. -/
theorem reachable (x : Execution step initial) (n : ℕ) : Reachable step initial (x.state n) := by
  induction n with
  | zero =>
      rw [x.starts]
      exact .start
  | succ n ih =>
      cases hevent : x.event n with
      | none =>
          rw [x.rests n hevent]
          exact ih
      | some e => exact .next e ih (x.follows n e hevent)

/-- An event that stays enabled from some moment on happens, for every event of a kind. -/
def Fair (x : Execution step initial) (kind : ε → Prop) : Prop :=
  ∀ e, kind e → ∀ n, (∀ m ≥ n, (step (x.state m) e).isSome) → ∃ m ≥ n, x.event m = some e

/-- The rule of progress: a condition that every step keeps or turns into the goal, and under which
an event that fairness serves reaches the goal, leads to the goal. -/
theorem Fair.progress {kind : ε → Prop} (hfair : x.Fair kind) (he : kind e)
    (hstep : ∀ s e' s', p s → step s e' = some s' → p s' ∨ q s')
    (hhelps : ∀ s, p s → ∃ s', step s e = some s' ∧ q s') (hn : p (x.state n)) :
    ∃ m ≥ n, q (x.state m) := by
  by_contra hnever
  push Not at hnever
  have hstays : ∀ m ≥ n, p (x.state m) := by
    intro m hm
    induction m, hm using Nat.le_induction with
    | base => exact hn
    | succ m hm ih =>
        cases hevent : x.event m with
        | none =>
            rw [x.rests m hevent]
            exact ih
        | some e' =>
            rcases hstep _ e' _ ih (x.follows m e' hevent) with hp | hq
            · exact hp
            · exact absurd hq (hnever (m + 1) (by omega))
  have henabled : ∀ m ≥ n, (step (x.state m) e).isSome := by
    intro m hm
    obtain ⟨s', hs', -⟩ := hhelps _ (hstays m hm)
    rw [hs']
    rfl
  obtain ⟨m, hm, hevent⟩ := hfair e he n henabled
  obtain ⟨s', hs', hq⟩ := hhelps _ (hstays m hm)
  rw [x.follows m e hevent] at hs'
  obtain rfl := Option.some.inj hs'
  exact hnever (m + 1) (by omega) hq

/-! ### Executions that come to rest -/

/-- The state after some events, of which the disabled ones do not happen. -/
def stateAfter (step : σ → ε → Option σ) (initial : σ) (events : List ε) : σ :=
  events.foldl (fun s e => (step s e).getD s) initial

/-- The execution in which the listed events happen one after the other, as far as they are
enabled, and nothing afterwards. -/
def ofEvents (step : σ → ε → Option σ) (initial : σ) (events : List ε) :
    Execution step initial where
  state n := stateAfter step initial (events.take n)
  event n := events[n]?.filter fun e => (step (stateAfter step initial (events.take n)) e).isSome
  starts := rfl
  rests n hn := by
    cases hevent : events[n]? with
    | none =>
        rw [List.getElem?_eq_none_iff] at hevent
        rw [List.take_of_length_le hevent, List.take_of_length_le (by omega)]
    | some e =>
        rw [hevent, Option.filter_some] at hn
        have hdisabled : step (stateAfter step initial (events.take n)) e = none := by
          simpa using hn
        unfold stateAfter at hdisabled ⊢
        rw [List.take_add_one, hevent, List.foldl_append, Option.toList_some, List.foldl_cons,
          List.foldl_nil, hdisabled, Option.getD_none]
  follows n e hn := by
    obtain ⟨hevent, henabled⟩ := Option.filter_eq_some_iff.mp hn
    obtain ⟨s', hs'⟩ := Option.isSome_iff_exists.mp henabled
    rw [hs']
    unfold stateAfter at hs' ⊢
    rw [List.take_add_one, hevent, List.foldl_append, Option.toList_some, List.foldl_cons,
      List.foldl_nil, hs', Option.getD_some]

/-- An execution that rests where no event of a kind is enabled is fair to that kind. -/
theorem fair_ofEvents {kind : ε → Prop} {events : List ε}
    (h : ∀ e, kind e → step (stateAfter step initial events) e = none) :
    (ofEvents step initial events).Fair kind := by
  intro e he n henabled
  have hlast := henabled (max n events.length) (Nat.le_max_left _ _)
  have hstate : (ofEvents step initial events).state (max n events.length) =
      stateAfter step initial events := by
    unfold ofEvents
    dsimp only
    rw [List.take_of_length_le (Nat.le_max_right _ _)]
  rw [hstate, h e he] at hlast
  cases hlast

end Execution

end Interleaving
