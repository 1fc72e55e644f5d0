import Mathlib.Data.Option.Basic

/-!
# Truth values of SQL

A condition over nullable columns is true, false or unknown. A `where` clause and a `case` take a
row only when the condition is true, so what counts of a condition is whether it holds. The main
results say how holding passes through the connectives.
-/

namespace Relational

/-- A truth value: `none` is unknown. -/
abbrev Truth := Option Bool

namespace Truth

/-- Whether a condition is true, as `where`, `case` and `is true` ask. -/
def holds (a : Truth) : Bool := a == some true

/-- Disjunction. -/
def or : Truth → Truth → Truth
  | some true, _ => some true
  | _, some true => some true
  | some false, some false => some false
  | _, _ => none

/-- Conjunction. -/
def and : Truth → Truth → Truth
  | some false, _ => some false
  | _, some false => some false
  | some true, some true => some true
  | _, _ => none

/-- A comparison of nullable values: unknown when one of them is missing. -/
def compare {α : Type*} (r : α → α → Bool) (a b : Option α) : Truth :=
  a.bind fun x => b.map (r x)

/-- The test `is true`, which is never unknown. -/
def isTrue (a : Truth) : Truth := some a.holds

variable {α : Type*} {a b : Truth}

@[simp] theorem holds_some (p : Bool) : holds (some p) = p := by
  cases p <;> rfl

/-- A disjunction holds when one side does. -/
@[simp] theorem holds_or : (a.or b).holds = (a.holds || b.holds) := by
  rcases a with _ | _ | _ <;> rcases b with _ | _ | _ <;> rfl

/-- A conjunction holds when both sides do. -/
@[simp] theorem holds_and : (a.and b).holds = (a.holds && b.holds) := by
  rcases a with _ | _ | _ <;> rcases b with _ | _ | _ <;> rfl

@[simp] theorem holds_isTrue : a.isTrue.holds = a.holds := holds_some _

/-- An equation holds when the value is there and equal. -/
@[simp] theorem holds_beq [BEq α] (x : Option α) (y : α) :
    (compare (· == ·) x (some y)).holds = (x == some y) := by
  cases x with
  | none => rfl
  | some v => exact holds_some _

/-- A comparison holds when both values are there and compare. -/
@[simp] theorem holds_compare (r : α → α → Bool) (x : Option α) (y : α) :
    (compare r x (some y)).holds = x.any fun v => r v y := by
  cases x with
  | none => rfl
  | some v => exact holds_some _

end Truth

end Relational
