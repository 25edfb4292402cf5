import LineCalc.Decimal.Arithmetic
import Mathlib.Data.Rat.Floor
import Mathlib.Tactic.FieldSimp
import Mathlib.Tactic.Linarith
import Mathlib.Tactic.Positivity

/-!
# Decimals as rational numbers

A decimal denotes a rational number. What is asked of a decimal without regard to the way it is
written can be asked of that number: whether two decimals are the same, how many places one needs,
and what rounding makes of it.

* **`Decimal.toRat`**: the number that a decimal denotes.
* **`Rounding.toInt`**: the integer that a rational number is rounded to. Every rounding of a
  quotient is one of the rational number (`Rounding.divide_eq_toInt`).
* **`Decimal.scale_normalize_le_iff`**: the places that a decimal needs are those of its number.
* **`Decimal.toRat_roundTo`**: rounding to some places rounds the number on the grid of these places.
-/

namespace LineCalc

theorem cast_pow10 (n : Nat) : ((pow10 n : Nat) : ℚ) = 10 ^ n := by
  have h : pow10 n = 10 ^ n := rfl
  rw [h]
  push_cast
  rfl

theorem ten_pow_pos (n : Nat) : (0 : ℚ) < 10 ^ n := by positivity

/-! ## Rounding a rational number -/

namespace Rounding

/-- A common factor of numerator and denominator makes no difference. -/
theorem divide_mul_mul (mode : Rounding) (num : Int) (den : Nat) {c : Nat} (hc : 0 < c) :
    mode.divide (c * num) (c * den) = mode.divide num den := by
  have hc' : (0 : Int) < c := by omega
  have hquotient : (c * num) / (↑(c * den) : Int) = num / den := by
    rw [Nat.cast_mul, Int.mul_ediv_mul_of_pos _ _ hc']
  have hremainder : (c * num) % (↑(c * den) : Int) = c * (num % den) := by
    rw [Nat.cast_mul, Int.mul_emod_mul_of_pos _ _ hc']
  have hsign : 0 ≤ c * num ↔ 0 ≤ num := mul_nonneg_iff_of_pos_left hc'
  have hbelow : 2 * (c * (num % (den : Int))) < ↑(c * den) ↔ 2 * (num % (den : Int)) < den := by
    rw [Nat.cast_mul, mul_left_comm, mul_lt_mul_iff_right₀ hc']
  have habove : ↑(c * den) < 2 * (c * (num % (den : Int))) ↔ den < 2 * (num % (den : Int)) := by
    rw [Nat.cast_mul, mul_left_comm, mul_lt_mul_iff_right₀ hc']
  have hzero : c * (num % (den : Int)) = 0 ↔ num % (den : Int) = 0 := by
    rw [mul_eq_zero, or_iff_right (by omega)]
  cases mode <;> simp only [divide, hquotient, hremainder, hsign, hbelow, habove, hzero]

/-- The integer that a number is rounded to. -/
def toInt (mode : Rounding) (x : ℚ) : Int :=
  mode.divide x.num x.den

theorem divide_eq_toInt (mode : Rounding) (num : Int) {den : Nat} (hden : 0 < den) :
    mode.divide num den = mode.toInt (num / den) := by
  set x : ℚ := num / den with hx
  have hcross : num * x.den = x.num * den := by
    have hden' : (den : ℚ) ≠ 0 := by positivity
    have hxden : (x.den : ℚ) ≠ 0 := by exact_mod_cast x.den_nz
    have hfrac : (num : ℚ) / den = x.num / x.den := by rw [Rat.num_div_den]
    rw [div_eq_div_iff hden' hxden] at hfrac
    exact_mod_cast hfrac
  calc mode.divide num den
      = mode.divide (x.den * num) (x.den * den) := (divide_mul_mul mode num den x.den_pos).symm
    _ = mode.divide (den * x.num) (den * x.den) := by
        rw [mul_comm (x.den : Int), hcross, mul_comm x.num, Nat.mul_comm]
    _ = mode.toInt x := divide_mul_mul mode x.num x.den hden

theorem toInt_intCast (mode : Rounding) (n : Int) : mode.toInt n = n := by
  have h := mode.divide_mul_self n Nat.one_pos
  rwa [Nat.cast_one, Int.mul_one] at h

theorem toInt_floor (x : ℚ) : floor.toInt x = ⌊x⌋ := by
  rw [toInt, divide, ← Rat.floor_intCast_div_natCast, Rat.num_div_den]

/-- Every mode gives the floor, or the next integer where that is not the number itself. -/
theorem toInt_eq_floor_or_next (mode : Rounding) (x : ℚ) :
    mode.toInt x = ⌊x⌋ ∨ (mode.toInt x = ⌊x⌋ + 1 ∧ (⌊x⌋ : ℚ) < x) := by
  have hfloor : ⌊x⌋ = x.num / x.den := (toInt_floor x).symm
  rw [hfloor]
  rcases mode.divide_eq_floor_or_next x.num x.den_pos with h | ⟨h, hrem⟩
  · exact .inl h
  · refine .inr ⟨h, ?_⟩
    rw [← hfloor]
    refine lt_of_le_of_ne (Int.floor_le x) fun heq => hrem ?_
    rw [← heq, Rat.num_intCast, Rat.den_intCast, Nat.cast_one, Int.emod_one]

/-- Rounding does not go below an integer. -/
theorem le_toInt (mode : Rounding) {n : Int} {x : ℚ} (h : (n : ℚ) ≤ x) : n ≤ mode.toInt x := by
  have hfloor : n ≤ ⌊x⌋ := Int.le_floor.2 h
  rcases mode.toInt_eq_floor_or_next x with heq | ⟨heq, -⟩ <;> omega

/-- Rounding does not go above an integer. -/
theorem toInt_le (mode : Rounding) {n : Int} {x : ℚ} (h : x ≤ n) : mode.toInt x ≤ n := by
  have hfloor : ⌊x⌋ ≤ n := by exact_mod_cast (Int.floor_le x).trans h
  rcases mode.toInt_eq_floor_or_next x with heq | ⟨heq, hlt⟩
  · omega
  · have hbelow : ⌊x⌋ < n := by exact_mod_cast hlt.trans_le h
    omega

end Rounding

/-! ## The number of a decimal -/

/-- Numbers that are written with at most so many decimal places. -/
def HasPlaces (places : Nat) (x : ℚ) : Prop :=
  ∃ n : Int, x * 10 ^ places = n

theorem HasPlaces.mono {m n : Nat} {x : ℚ} (h : HasPlaces m x) (hle : m ≤ n) : HasPlaces n x := by
  obtain ⟨k, hk⟩ := h
  refine ⟨k * 10 ^ (n - m), ?_⟩
  have hpow : (10 : ℚ) ^ n = 10 ^ m * 10 ^ (n - m) := by rw [← pow_add, Nat.add_sub_cancel' hle]
  rw [hpow, ← mul_assoc, hk]
  push_cast
  rfl

namespace HasPlaces

variable {places more : Nat} {x y : ℚ}

theorem neg (hx : HasPlaces places x) : HasPlaces places (-x) := by
  obtain ⟨n, hn⟩ := hx
  exact ⟨-n, by rw [neg_mul, hn, Int.cast_neg]⟩

theorem add (hx : HasPlaces places x) (hy : HasPlaces places y) : HasPlaces places (x + y) := by
  obtain ⟨m, hm⟩ := hx
  obtain ⟨n, hn⟩ := hy
  exact ⟨m + n, by rw [add_mul, hm, hn, Int.cast_add]⟩

theorem sub (hx : HasPlaces places x) (hy : HasPlaces places y) : HasPlaces places (x - y) := by
  rw [sub_eq_add_neg]
  exact hx.add hy.neg

theorem mul (hx : HasPlaces places x) (hy : HasPlaces more y) :
    HasPlaces (places + more) (x * y) := by
  obtain ⟨m, hm⟩ := hx
  obtain ⟨n, hn⟩ := hy
  exact ⟨m * n, by rw [pow_add, mul_mul_mul_comm, hm, hn, Int.cast_mul]⟩

/-- Moving the point to the left takes as many places more. -/
theorem div_pow (hx : HasPlaces places x) (count : Nat) :
    HasPlaces (places + count) (x / 10 ^ count) := by
  obtain ⟨n, hn⟩ := hx
  refine ⟨n, ?_⟩
  rw [pow_add, mul_comm ((10 : ℚ) ^ places), ← mul_assoc,
    div_mul_cancel₀ _ (ten_pow_pos count).ne', hn]

/-- Rounding to some places does not go below a number of the grid. -/
theorem le_toInt_div (mode : Rounding) (hy : HasPlaces places y) (h : y ≤ x) :
    y ≤ mode.toInt (x * 10 ^ places) / 10 ^ places := by
  have hpow := ten_pow_pos places
  obtain ⟨n, hn⟩ := hy
  have hle : (n : ℚ) ≤ x * 10 ^ places := hn ▸ mul_le_mul_of_nonneg_right h hpow.le
  rw [le_div_iff₀ hpow, hn]
  exact_mod_cast mode.le_toInt hle

/-- Rounding to some places does not go above a number of the grid. -/
theorem toInt_div_le (mode : Rounding) (hy : HasPlaces places y) (h : x ≤ y) :
    mode.toInt (x * 10 ^ places) / 10 ^ places ≤ y := by
  have hpow := ten_pow_pos places
  obtain ⟨n, hn⟩ := hy
  have hle : x * 10 ^ places ≤ (n : ℚ) := hn ▸ mul_le_mul_of_nonneg_right h hpow.le
  rw [div_le_iff₀ hpow, hn]
  exact_mod_cast mode.toInt_le hle

end HasPlaces

namespace Decimal

/-- The number that a decimal denotes. -/
def toRat (d : Decimal) : ℚ :=
  d.mantissa / 10 ^ d.scale

variable {a b d : Decimal} {places : Nat} {mode : Rounding}

theorem toRat_mul_pow (d : Decimal) : d.toRat * 10 ^ d.scale = d.mantissa :=
  div_mul_cancel₀ _ (ten_pow_pos d.scale).ne'

theorem hasPlaces_toRat (d : Decimal) : HasPlaces d.scale d.toRat :=
  ⟨d.mantissa, d.toRat_mul_pow⟩

theorem toRat_eq_iff {x : ℚ} : d.toRat = x ↔ (d.mantissa : ℚ) = x * 10 ^ d.scale :=
  div_eq_iff (ten_pow_pos d.scale).ne'

theorem sameNumber_iff_toRat : a.sameNumber b = true ↔ a.toRat = b.toRat := by
  have hcast : a.mantissa * (pow10 b.scale : Int) = b.mantissa * pow10 a.scale ↔
      (a.mantissa : ℚ) * 10 ^ b.scale = b.mantissa * 10 ^ a.scale := by
    rw [← cast_pow10, ← cast_pow10]
    exact_mod_cast Iff.rfl
  rw [sameNumber_iff, hcast]
  exact (div_eq_div_iff (ten_pow_pos a.scale).ne' (ten_pow_pos b.scale).ne').symm

theorem toRat_normalize (d : Decimal) : d.normalize.toRat = d.toRat :=
  sameNumber_iff_toRat.1 d.sameNumber_normalize

theorem toRat_zero : zero.toRat = 0 := by
  simp [toRat, zero, ofInt]

theorem isZero_iff_toRat : d.isZero = true ↔ d.toRat = 0 := by
  rw [isZero, beq_iff_eq, toRat, div_eq_zero_iff, Int.cast_eq_zero,
    or_iff_left (ten_pow_pos d.scale).ne']

theorem isNegative_iff_toRat {d : Decimal} : d.isNegative = true ↔ d.toRat < 0 := by
  rw [isNegative, decide_eq_true_eq, toRat, div_neg_iff]
  have hpow := ten_pow_pos d.scale
  constructor
  · intro h
    exact .inr ⟨by exact_mod_cast h, hpow⟩
  · rintro (⟨-, hneg⟩ | ⟨h, -⟩)
    · exact absurd hneg hpow.not_gt
    · exact_mod_cast h

/-- Numerators over a common power of ten are in the order of the numbers. -/
theorem mul_pow10_le_iff_toRat :
    a.mantissa * (pow10 b.scale : Int) ≤ b.mantissa * pow10 a.scale ↔ a.toRat ≤ b.toRat := by
  have hcast : a.mantissa * (pow10 b.scale : Int) ≤ b.mantissa * pow10 a.scale ↔
      (a.mantissa : ℚ) * 10 ^ b.scale ≤ b.mantissa * 10 ^ a.scale := by
    rw [← cast_pow10, ← cast_pow10]
    exact_mod_cast Iff.rfl
  rw [hcast]
  exact (div_le_div_iff₀ (ten_pow_pos a.scale) (ten_pow_pos b.scale)).symm

theorem le_iff_toRat : a.le b = true ↔ a.toRat ≤ b.toRat := by
  rw [le, compare, Int.isLE_compare, mul_pow10_le_iff_toRat]

theorem lt_iff_toRat : a.lt b = true ↔ a.toRat < b.toRat := by
  rw [lt, compare, Ordering.isLT_iff_eq_lt, Int.compare_eq_lt, ← not_le, mul_pow10_le_iff_toRat,
    not_le]

theorem toRat_neg (d : Decimal) : d.neg.toRat = -d.toRat := by
  simp [toRat, neg, neg_div]

theorem toRat_abs (d : Decimal) : d.abs.toRat = |d.toRat| := by
  unfold abs
  split
  · rename_i hnegative
    rw [toRat_neg, abs_of_neg (isNegative_iff_toRat.1 hnegative)]
  · rename_i hpositive
    rw [isNegative_iff_toRat, not_lt] at hpositive
    rw [abs_of_nonneg hpositive]

/-- A decimal in its shortest form has as many places as its number needs. -/
theorem scale_normalize_le_iff : d.normalize.scale ≤ places ↔ HasPlaces places d.toRat := by
  constructor
  · intro h
    rw [← toRat_normalize]
    exact d.normalize.hasPlaces_toRat.mono h
  · rintro ⟨n, hn⟩
    rcases d.reduced_normalize with hzero | hlast
    · omega
    -- with fewer places than it has, the last digit would be a zero
    by_contra hlt
    have hplaces : d.normalize.scale = places + (d.normalize.scale - places - 1) + 1 := by omega
    have hmantissa : (d.normalize.mantissa : ℚ) =
        n * 10 ^ (d.normalize.scale - places - 1) * 10 := by
      rw [← toRat_mul_pow, toRat_normalize, ← hn, mul_assoc, mul_assoc, ← pow_succ, ← pow_add]
      congr 2
    have hint : d.normalize.mantissa = n * 10 ^ (d.normalize.scale - places - 1) * 10 := by
      exact_mod_cast hmantissa
    exact hlast (by rw [hint, Int.mul_emod_left])

theorem scale_normalize_congr (h : a.toRat = b.toRat) : a.normalize.scale = b.normalize.scale := by
  apply le_antisymm
  · rw [scale_normalize_le_iff, h, ← scale_normalize_le_iff]
  · rw [scale_normalize_le_iff, ← h, ← scale_normalize_le_iff]

theorem normalize_congr (h : a.toRat = b.toRat) : a.normalize = b.normalize := by
  have hscale := scale_normalize_congr h
  refine ext_parts ?_ hscale
  have hmantissa : (a.normalize.mantissa : ℚ) = b.normalize.mantissa := by
    rw [← toRat_mul_pow, ← toRat_mul_pow, toRat_normalize, toRat_normalize, h, hscale]
  exact_mod_cast hmantissa

/-! ## Rounding to some places -/

theorem toRat_roundTo (d : Decimal) (places : Nat) (mode : Rounding) :
    (d.roundTo places mode).toRat = mode.toInt (d.toRat * 10 ^ places) / 10 ^ places := by
  have hne := (ten_pow_pos places).ne'
  by_cases h : d.scale ≤ places
  · obtain ⟨n, hn⟩ := d.hasPlaces_toRat.mono h
    rw [roundTo_of_scale_le h, hn, Rounding.toInt_intCast, ← hn, mul_div_cancel_right₀ _ hne]
  · have hquotient : d.toRat * 10 ^ places = d.mantissa / ↑(pow10 (d.scale - places)) := by
      have hpow : (10 : ℚ) ^ d.scale = 10 ^ (d.scale - places) * 10 ^ places := by
        rw [← pow_add, Nat.sub_add_cancel (by omega)]
      rw [toRat, cast_pow10, hpow, div_mul_eq_mul_div, mul_div_mul_right _ _ hne]
    rw [hquotient, ← Rounding.divide_eq_toInt _ _ (pow10_pos _)]
    simp only [roundTo, h, dite_false]
    rfl

theorem hasPlaces_toRat_roundTo (d : Decimal) (places : Nat) (mode : Rounding) :
    HasPlaces places (d.roundTo places mode).toRat :=
  ⟨mode.toInt (d.toRat * 10 ^ places), by
    rw [toRat_roundTo, div_mul_cancel₀ _ (ten_pow_pos places).ne']⟩

/-- A number that has the places stays as it is. -/
theorem toRat_roundTo_of_hasPlaces (h : HasPlaces places d.toRat) :
    (d.roundTo places mode).toRat = d.toRat := by
  obtain ⟨n, hn⟩ := h
  rw [toRat_roundTo, hn, Rounding.toInt_intCast, ← hn,
    mul_div_cancel_right₀ _ (ten_pow_pos places).ne']

theorem toRat_roundTo_congr (h : a.toRat = b.toRat) :
    (a.roundTo places mode).toRat = (b.roundTo places mode).toRat := by
  rw [toRat_roundTo, toRat_roundTo, h]

theorem le_toRat_roundTo {x : ℚ} (hx : HasPlaces places x) (h : x ≤ d.toRat) :
    x ≤ (d.roundTo places mode).toRat := by
  rw [toRat_roundTo]
  exact hx.le_toInt_div mode h

theorem toRat_roundTo_le {x : ℚ} (hx : HasPlaces places x) (h : d.toRat ≤ x) :
    (d.roundTo places mode).toRat ≤ x := by
  rw [toRat_roundTo]
  exact hx.toInt_div_le mode h

end Decimal

end LineCalc
