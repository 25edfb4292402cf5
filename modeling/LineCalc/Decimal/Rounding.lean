/-!
# Rounding a quotient to an integer

Every rounding of the library, in range reduction as well as in `round`, `ceil` and `floor`, is one
of these modes applied to a quotient of integers. By Euclidean division the quotient lies between
its floor `num / den` and the next integer, and the mode says which of the two it becomes.
-/

namespace LineCalc

/-- How a quotient becomes an integer. -/
inductive Rounding where
  /-- To the nearest integer, a half to the even one. -/
  | halfEven
  /-- To the nearest integer, a half away from zero. -/
  | halfAway
  /-- To the largest integer not above. -/
  | floor
  /-- To the smallest integer not below. -/
  | ceiling
  /-- To the nearest integer on the side of zero. -/
  | towardZero
  deriving Repr, DecidableEq

namespace Rounding

/-- The integer that `num / den` is rounded to. -/
def divide (mode : Rounding) (num : Int) (den : Nat) : Int :=
  let quotient := num / den
  let remainder := num % den
  match mode with
  | .floor => quotient
  | .ceiling => if remainder = 0 then quotient else quotient + 1
  | .towardZero => if 0 ≤ num ∨ remainder = 0 then quotient else quotient + 1
  | .halfEven =>
    if 2 * remainder < den then quotient
    else if den < 2 * remainder then quotient + 1
    else if quotient % 2 = 0 then quotient
    else quotient + 1
  | .halfAway =>
    if 2 * remainder < den then quotient
    else if den < 2 * remainder then quotient + 1
    else if 0 ≤ num then quotient + 1
    else quotient

/-- Every mode gives the floor, or the next integer when there is a remainder. -/
theorem divide_eq_floor_or_next (mode : Rounding) (num : Int) {den : Nat} (hden : 0 < den) :
    mode.divide num den = num / den ∨
      (mode.divide num den = num / den + 1 ∧ num % den ≠ 0) := by
  have hnonneg : 0 ≤ num % (den : Int) := Int.emod_nonneg _ (by omega)
  cases mode with
  | floor => exact Or.inl rfl
  | _ =>
    simp only [divide]
    (repeat' split) <;> omega

/-- A quotient that is an integer stays as it is. -/
theorem divide_mul_self (mode : Rounding) (n : Int) {den : Nat} (hden : 0 < den) :
    mode.divide (n * den) den = n := by
  have hq : n * (den : Int) / den = n := Int.mul_ediv_cancel n (by omega)
  rcases mode.divide_eq_floor_or_next (n * den) hden with h | ⟨_, h⟩
  · rw [h, hq]
  · exact absurd (Int.mul_emod_left n den) h

/-- Rounding a quotient never gives more than the numerator's magnitude. -/
theorem natAbs_divide_le (mode : Rounding) (num : Int) {den : Nat} (hden : 0 < den) :
    (mode.divide num den).natAbs ≤ num.natAbs := by
  have hsum : num % (den : Int) + den * (num / den) = num := Int.emod_add_mul_ediv num den
  have hnonneg : 0 ≤ num % (den : Int) := Int.emod_nonneg _ (by omega)
  have hlt : num % (den : Int) < den := Int.emod_lt_of_pos _ (by omega)
  have hden' : (1 : Int) ≤ den := by omega
  rcases Int.lt_or_le num 0 with hneg | hpos
  · have hq : num / (den : Int) < 0 := Int.ediv_neg_of_neg_of_pos hneg (by omega)
    have hle : ((den : Int) - 1) * (num / den + 1) ≤ 0 :=
      Int.mul_nonpos_of_nonneg_of_nonpos (by omega) (by omega)
    have hexpand : ((den : Int) - 1) * (num / den + 1) = den * (num / den) + den - num / den - 1 := by
      rw [Int.sub_mul, Int.mul_add]
      omega
    rcases mode.divide_eq_floor_or_next num hden with h | ⟨h, hr⟩ <;> rw [h] <;> omega
  · have hq : 0 ≤ num / (den : Int) := Int.ediv_nonneg hpos (by omega)
    have hle : 1 * (num / (den : Int)) ≤ den * (num / den) :=
      Int.mul_le_mul_of_nonneg_right hden' hq
    rcases mode.divide_eq_floor_or_next num hden with h | ⟨h, hr⟩ <;> rw [h] <;> omega

end Rounding

end LineCalc
