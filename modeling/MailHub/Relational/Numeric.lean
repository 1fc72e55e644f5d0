import Mathlib.Algebra.Order.Field.Rat
import Mathlib.Data.List.TakeWhile
import Mathlib.Tactic.NormNum
import Mathlib.Tactic.Ring

/-!
# Numeric text

The text of an SQL number with six decimals, as a count of microseconds gives it in seconds, and the
value that the database reads from decimal text. The main result is that nothing is lost between
the two.
-/

namespace Relational

/-- The number that a list of digits writes. -/
def digitsValue (cs : List Char) : ℕ := Nat.ofDigitChars 10 cs 0

/-- The digits of a number below `10 ^ n`, filled up to `n` of them. -/
def paddedDigits (n v : ℕ) : List Char :=
  List.replicate (n - (Nat.toDigits 10 v).length) '0' ++ Nat.toDigits 10 v

/-- The text of a count of millionths. -/
def numericText (v : ℤ) : List Char :=
  (if v < 0 then ['-'] else []) ++ Nat.toDigits 10 (v.natAbs / 1000000) ++
    '.' :: paddedDigits 6 (v.natAbs % 1000000)

/-- The value of `\d+(\.\d+)?`. -/
def unsignedNumeric (cs : List Char) : Option ℚ :=
  let whole := cs.takeWhile Char.isDigit
  if whole = [] then none
  else
    match cs.dropWhile Char.isDigit with
    | [] => some (digitsValue whole : ℚ)
    | c :: part =>
        if c = '.' ∧ part ≠ [] ∧ part.all Char.isDigit = true then
          some ((digitsValue whole : ℚ) + (digitsValue part : ℚ) / 10 ^ part.length)
        else none

/-- The value of `-?\d+(\.\d+)?`. -/
def numericOf : List Char → Option ℚ
  | '-' :: cs => (unsignedNumeric cs).map fun q => -q
  | cs => unsignedNumeric cs

/-! ## Reading back -/

variable {n v : ℕ}

theorem isDigit_toDigits {c : Char} (h : c ∈ Nat.toDigits 10 v) : c.isDigit = true :=
  Nat.isDigit_of_mem_toDigits (by decide) (by decide) h

theorem isDigit_paddedDigits {c : Char} (h : c ∈ paddedDigits n v) : c.isDigit = true := by
  rcases List.mem_append.mp h with h | h
  · rw [List.eq_of_mem_replicate h]
    decide
  · exact isDigit_toDigits h

@[simp] theorem digitsValue_toDigits : digitsValue (Nat.toDigits 10 v) = v :=
  Nat.ofDigitChars_ten_toDigits

@[simp] theorem digitsValue_paddedDigits : digitsValue (paddedDigits n v) = v := by
  unfold digitsValue paddedDigits
  rw [Nat.ofDigitChars_append, Nat.ofDigitChars_replicate_zero, Nat.mul_zero]
  exact digitsValue_toDigits

theorem length_paddedDigits (hn : 0 < n) (hv : v < 10 ^ n) : (paddedDigits n v).length = n := by
  have hle : (Nat.toDigits 10 v).length ≤ n :=
    (Nat.length_toDigits_le_iff (by decide) hn).mpr hv
  unfold paddedDigits
  rw [List.length_append, List.length_replicate, Nat.sub_add_cancel hle]

/-- Digits, a point and digits read as their decimal value. -/
theorem unsignedNumeric_append {whole part : List Char} (hwhole : ∀ c ∈ whole, c.isDigit = true)
    (hpart : ∀ c ∈ part, c.isDigit = true) (hwne : whole ≠ []) (hpne : part ≠ []) :
    unsignedNumeric (whole ++ '.' :: part) =
      some ((digitsValue whole : ℚ) + (digitsValue part : ℚ) / 10 ^ part.length) := by
  have htake : (whole ++ '.' :: part).takeWhile Char.isDigit = whole := by
    rw [List.takeWhile_append_of_pos hwhole]
    have hpoint : ('.' :: part).takeWhile Char.isDigit = [] := rfl
    rw [hpoint, List.append_nil]
  have hdrop : (whole ++ '.' :: part).dropWhile Char.isDigit = '.' :: part := by
    rw [List.dropWhile_append_of_pos hwhole]
    rfl
  have hall : part.all Char.isDigit = true := List.all_eq_true.mpr hpart
  unfold unsignedNumeric
  simp only [htake, hdrop, if_neg hwne]
  rw [if_pos ⟨trivial, hpne, hall⟩]

/-- The digits of a count of millionths read as that many millionths. -/
theorem unsignedNumeric_millionths (v : ℕ) :
    unsignedNumeric (Nat.toDigits 10 (v / 1000000) ++ '.' :: paddedDigits 6 (v % 1000000)) =
      some ((v : ℚ) / 1000000) := by
  have hlength : (paddedDigits 6 (v % 1000000)).length = 6 :=
    length_paddedDigits (by decide) (Nat.mod_lt _ (by decide))
  have hne : paddedDigits 6 (v % 1000000) ≠ [] := by
    intro h
    rw [h] at hlength
    cases hlength
  have hsplit : (v : ℚ) = 1000000 * ((v / 1000000 : ℕ) : ℚ) + ((v % 1000000 : ℕ) : ℚ) := by
    exact_mod_cast (Nat.div_add_mod v 1000000).symm
  rw [unsignedNumeric_append (fun _ => isDigit_toDigits) (fun _ => isDigit_paddedDigits)
    Nat.toDigits_ne_nil hne, digitsValue_toDigits, digitsValue_paddedDigits, hlength]
  rw [Option.some_inj, eq_div_iff (by norm_num), hsplit]
  ring

/-- Text that starts with a digit has no sign. -/
theorem numericOf_digit {c : Char} {cs : List Char} (hc : c.isDigit = true) :
    numericOf (c :: cs) = unsignedNumeric (c :: cs) := by
  have hne : c ≠ '-' := by
    rintro rfl
    exact absurd hc (by decide)
  unfold numericOf
  split
  next heq => exact absurd (List.cons.inj heq).1 hne
  next => rfl

/-- The text of a count of millionths reads as that many millionths. -/
theorem numericOf_numericText (v : ℤ) : numericOf (numericText v) = some ((v : ℚ) / 1000000) := by
  unfold numericText
  by_cases hneg : v < 0
  · have habs : ((v.natAbs : ℕ) : ℤ) = -v := by omega
    have hcast : (v.natAbs : ℚ) = -(v : ℚ) := by
      rw [← Int.cast_natCast, habs, Int.cast_neg]
    rw [if_pos hneg, List.append_assoc, List.singleton_append, numericOf,
      unsignedNumeric_millionths, Option.map_some, hcast, neg_div, neg_neg]
  · have habs : ((v.natAbs : ℕ) : ℤ) = v := by omega
    have hcast : (v.natAbs : ℚ) = (v : ℚ) := by
      rw [← Int.cast_natCast, habs]
    obtain ⟨c, cs, hdigits⟩ := List.exists_cons_of_ne_nil
      (@Nat.toDigits_ne_nil (v.natAbs / 1000000) 10)
    have hc : c.isDigit = true := isDigit_toDigits (hdigits ▸ List.mem_cons_self)
    rw [if_neg hneg, List.nil_append, ← hcast, ← unsignedNumeric_millionths, hdigits,
      List.cons_append, numericOf_digit hc]

/-- The text of a timestamp is short. -/
theorem length_numericText {v : ℤ} (hv : v.natAbs < 10 ^ 38) : (numericText v).length ≤ 40 := by
  have hwhole : (Nat.toDigits 10 (v.natAbs / 1000000)).length ≤ 32 := by
    rw [Nat.length_toDigits_le_iff (by decide) (by decide)]
    omega
  have hpart : (paddedDigits 6 (v.natAbs % 1000000)).length = 6 :=
    length_paddedDigits (by decide) (Nat.mod_lt _ (by decide))
  have hsign : (if v < 0 then ['-'] else []).length ≤ 1 := by
    split <;> decide
  unfold numericText
  rw [List.length_append, List.length_append, List.length_cons, hpart]
  omega

end Relational
