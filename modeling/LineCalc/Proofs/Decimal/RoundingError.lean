import LineCalc.Proofs.Decimal.Nearest

/-!
# How far results are off

A product or a quotient that needs more than 28 places, or more than 96 bits, is rounded. Its error
is small beside one if the places are what it lacks, and small beside the exact result if it lacks
the bits.

* **`Rounding.abs_toInt_nearest_sub_le`**: rounding to the nearest is off by a half at most.
* **`Rounding.toInt_halfAway_of_near`**: what is close to a fraction that is no half is rounded like it.
* **`Decimal.abs_sub_le_of_nearest?`**: what a number loses when it comes into range.
* **`Decimal.abs_sub_le_of_mul?`**, **`Decimal.abs_sub_le_of_div?`**: the errors of products and
  quotients.
* **`Decimal.exists_div?_powerOfTen`**: a quotient by a power of ten.
* **`Decimal.toRat_roundTo_of_near`**: a number of the grid is recovered from one that is close.
-/

namespace LineCalc

namespace Rounding

theorem abs_toInt_sub_le (mode : Rounding) (x : ℚ) : |(mode.toInt x : ℚ) - x| ≤ 1 := by
  have hlow := Int.floor_le x
  have hhigh := Int.lt_floor_add_one x
  rw [abs_le]
  rcases mode.toInt_eq_floor_or_next x with h | ⟨h, -⟩ <;> rw [h] <;> push_cast <;>
    constructor <;> linarith

/-- A numerator between the multiples of the denominator that it is rounded to. -/
theorem quotient_bounds (num : Int) {den : Nat} (hden : 0 < den) :
    0 ≤ num % (den : Int) ∧ num % (den : Int) < den ∧
      num / (den : Int) * den = num - num % den ∧
      (num / (den : Int) + 1) * den = num - num % den + den := by
  have hquotient : num / (den : Int) * den = num - num % den := by
    have hsum := Int.ediv_mul_add_emod num den
    omega
  exact ⟨Int.emod_nonneg _ (by omega), Int.emod_lt_of_pos _ (by omega), hquotient, by
    rw [Int.add_mul, Int.one_mul, hquotient]⟩

/-- The remainder says which of the two neighbours is the nearest integer. -/
theorem two_mul_divide_nearest {mode : Rounding} (hmode : mode.IsNearest) (num : Int) {den : Nat}
    (hden : 0 < den) :
    -(den : Int) ≤ 2 * (mode.divide num den * den - num) ∧
      2 * (mode.divide num den * den - num) ≤ den := by
  obtain ⟨hnonneg, hlt, hquotient, hnext⟩ := quotient_bounds num hden
  rcases hmode with rfl | rfl <;> simp only [divide] <;> (repeat' split) <;> constructor <;> omega

theorem abs_toInt_nearest_sub_le {mode : Rounding} (hmode : mode.IsNearest) (x : ℚ) :
    |(mode.toInt x : ℚ) - x| ≤ 1 / 2 := by
  have hden : (0 : ℚ) < x.den := by exact_mod_cast x.den_pos
  obtain ⟨hlow, hhigh⟩ := two_mul_divide_nearest hmode x.num x.den_pos
  have hnum : x * x.den = x.num := Rat.mul_den_eq_num x
  have hlow' : -(x.den : ℚ) ≤ 2 * (mode.toInt x * x.den - x.num) := by exact_mod_cast hlow
  have hhigh' : 2 * (mode.toInt x * x.den - x.num) ≤ (x.den : ℚ) := by exact_mod_cast hhigh
  rw [← hnum, ← sub_mul] at hlow' hhigh'
  rw [abs_le]
  constructor
  · exact le_of_mul_le_mul_right (by linarith) hden
  · exact le_of_mul_le_mul_right (by linarith) hden

/-- An integer that is less than a half away is the nearest one. -/
theorem toInt_halfAway_eq {n : Int} {x : ℚ} (h : |x - n| < 1 / 2) : halfAway.toInt x = n := by
  have hdistance : |((halfAway.toInt x - n : Int) : ℚ)| < 1 := by
    calc |((halfAway.toInt x - n : Int) : ℚ)|
        = |(halfAway.toInt x - x) + (x - n)| := by push_cast; ring_nf
      _ ≤ |(halfAway.toInt x : ℚ) - x| + |x - n| := abs_add_le _ _
      _ < 1 := by linarith [abs_toInt_nearest_sub_le (.inr rfl) x]
  have hzero : |halfAway.toInt x - n| < 1 := by exact_mod_cast hdistance
  exact sub_eq_zero.1 (Int.abs_lt_one_iff.1 hzero)

/-- A fraction that is no half lies on its side of the half by one part of the denominator at least. -/
theorem abs_sub_toInt_halfAway_le {z : ℚ} {m : Nat} {a : Int} (hm : 0 < m) (hz : z * m = a)
    (hhalf : ∀ k : Int, 2 * z ≠ k) : |z - halfAway.toInt z| ≤ 1 / 2 - 1 / (2 * m) := by
  have hm' : (0 : ℚ) < m := by exact_mod_cast hm
  set k := halfAway.toInt z with hk
  have hdistance : ((a - k * m : Int) : ℚ) = (z - k) * m := by
    push_cast
    rw [← hz]
    ring
  have hnear : 2 * |a - k * m| ≤ (m : Int) := by
    have hle : |(k : ℚ) - z| ≤ 1 / 2 := abs_toInt_nearest_sub_le (.inr rfl) z
    have hscaled : 2 * |((a - k * m : Int) : ℚ)| ≤ m := by
      rw [hdistance, abs_mul, abs_of_pos hm', abs_sub_comm]
      linarith [mul_le_mul_of_nonneg_right hle hm'.le]
    exact_mod_cast hscaled
  have hne : 2 * |a - k * m| ≠ (m : Int) := by
    intro heq
    have hcast : 2 * |((a - k * m : Int) : ℚ)| = m := by exact_mod_cast heq
    rw [hdistance, abs_mul, abs_of_pos hm', ← mul_assoc] at hcast
    have hone : 2 * |z - k| = 1 := by
      have hcancel : 2 * |z - k| * m = 1 * m := by rw [hcast, one_mul]
      exact mul_right_cancel₀ hm'.ne' hcancel
    rcases abs_choice (z - k) with habs | habs <;> rw [habs] at hone
    · exact hhalf (2 * k + 1) (by push_cast; linarith)
    · exact hhalf (2 * k - 1) (by push_cast; linarith)
  have hless : 2 * |a - k * m| ≤ (m : Int) - 1 := by omega
  have hcast : 2 * (|z - k| * m) ≤ m - 1 := by
    rw [← abs_of_pos hm', ← abs_mul, ← hdistance, abs_of_pos hm']
    exact_mod_cast hless
  have hsplit : (1 / 2 - 1 / (2 * m) : ℚ) = (m - 1) / (2 * m) := by
    field_simp
  rw [hsplit, le_div_iff₀ (by positivity)]
  linarith

/-- What is close to a fraction that is no half is rounded like it. -/
theorem toInt_halfAway_of_near {x z : ℚ} {m : Nat} {a : Int} (hm : 0 < m) (hz : z * m = a)
    (hhalf : ∀ k : Int, 2 * z ≠ k) (h : |x - z| < 1 / (2 * m)) :
    halfAway.toInt x = halfAway.toInt z := by
  apply toInt_halfAway_eq
  calc |x - halfAway.toInt z|
      ≤ |x - z| + |z - halfAway.toInt z| := abs_sub_le _ _ _
    _ < 1 / 2 := by linarith [abs_sub_toInt_halfAway_le hm hz hhalf]

end Rounding

namespace Decimal

variable {mode : Rounding} {x : ℚ} {a b d : Decimal}

/-- The most that a number loses when it comes into range. -/
def errorBound (x : ℚ) : ℚ :=
  (1 + 2 * |x|) / 10 ^ maxScale

theorem abs_toInt_div_sub_le (mode : Rounding) (x : ℚ) (places : Nat) :
    |mode.toInt (x * 10 ^ places) / 10 ^ places - x| ≤ 1 / 10 ^ places := by
  have hpow := ten_pow_pos places
  rw [div_sub' hpow.ne', abs_div, abs_of_pos hpow, mul_comm _ x]
  exact div_le_div_of_nonneg_right (mode.abs_toInt_sub_le _) hpow.le

/-- A number that has no more places because its digits fill the 96 bits is large on its grid. -/
theorem le_abs_of_overflows {places : Nat} (h : Overflows mode x places) :
    5 * 10 ^ maxScale ≤ |x| * 10 ^ places := by
  have hbits : (mantissaBound : ℚ) ≤ |(mode.toInt (x * 10 ^ places) : ℚ)| := by
    rw [← Int.cast_abs, Int.abs_eq_natAbs, Int.cast_natCast]
    exact Nat.cast_le.2 h
  have hbound : (5 * 10 ^ maxScale + 1 : ℚ) ≤ mantissaBound := by
    norm_num [maxScale, mantissaBound]
  have hnear : |(mode.toInt (x * 10 ^ places) : ℚ)| - |x * 10 ^ places| ≤ 1 :=
    (abs_sub_abs_le_abs_sub _ _).trans (mode.abs_toInt_sub_le _)
  rw [← abs_mul_pow]
  linarith

theorem abs_sub_le_of_nearest? (h : nearest? mode x maxScale = some d) :
    |d.toRat - x| ≤ errorBound x := by
  obtain ⟨hvalue, hmore⟩ := of_nearest?_eq_some le_rfl h
  have hpow := ten_pow_pos d.scale
  have hpow' := ten_pow_pos maxScale
  have hstep : |d.toRat - x| ≤ 1 / 10 ^ d.scale := hvalue ▸ abs_toInt_div_sub_le mode x d.scale
  refine hstep.trans ?_
  rw [errorBound, div_le_div_iff₀ hpow hpow']
  rcases Nat.lt_or_ge d.scale maxScale with hless | hall
  · -- one more place would not fit
    have hlarge := le_abs_of_overflows (hmore (d.scale + 1) (Nat.lt_succ_self _) hless)
    rw [pow_succ] at hlarge
    linarith
  · rw [Nat.le_antisymm d.scale_le hall]
    exact mul_le_mul_of_nonneg_right (by linarith [abs_nonneg x]) hpow'.le

theorem abs_sub_le_of_mul? (h : a.mul? b = some d) :
    |d.toRat - a.toRat * b.toRat| ≤ errorBound (a.toRat * b.toRat) := by
  obtain ⟨d', hnearest, hsame⟩ := exists_nearest?_of_mul? h
  rw [← hsame]
  exact abs_sub_le_of_nearest? hnearest

theorem abs_sub_le_of_div? (hb : b.toRat ≠ 0) (h : a.div? b = some d) :
    |d.toRat - a.toRat / b.toRat| ≤ errorBound (a.toRat / b.toRat) := by
  obtain ⟨mode, -, -, d', hnearest, hsame⟩ := exists_nearest?_of_div? hb h
  rw [← hsame]
  exact abs_sub_le_of_nearest? hnearest

theorem toRat_powerOfTen {n : Nat} (h : n ≤ maxScale) : (powerOfTen n h).toRat = 10 ^ n := by
  simp [toRat, powerOfTen, ofInt, cast_pow10]

theorem one_le_powerOfTen {n : Nat} (h : n ≤ maxScale) : 1 ≤ |(powerOfTen n h).toRat| := by
  rw [toRat_powerOfTen, abs_of_pos (ten_pow_pos n)]
  exact one_le_pow₀ (by norm_num)

/-- A decimal over a power of ten needs no more places than there are, or has room for all of them. -/
theorem exists_places_div_pow (mode : Rounding) (d : Decimal) (power : Nat) :
    ∃ places ≤ maxScale, ¬ Overflows mode (d.toRat / 10 ^ power) places ∧
      (HasPlaces places (d.toRat / 10 ^ power) ∨ places = maxScale) := by
  have hpow := ten_pow_pos power
  have hall : d.toRat / 10 ^ power * 10 ^ (d.scale + power) = d.mantissa := by
    rw [pow_add, mul_comm ((10 : ℚ) ^ d.scale), ← mul_assoc, div_mul_cancel₀ _ hpow.ne',
      toRat_mul_pow]
  rcases Nat.le_total (d.scale + power) maxScale with hfew | hmany
  · refine ⟨d.scale + power, hfew, ?_, .inl ⟨_, hall⟩⟩
    rw [Overflows, hall, Rounding.toInt_intCast]
    exact Nat.not_le.2 d.mantissa_lt
  · refine ⟨maxScale, le_rfl, not_overflows_of_le d.mantissa_lt ?_, .inr rfl⟩
    calc |d.toRat / 10 ^ power * 10 ^ maxScale|
        = |d.toRat / 10 ^ power| * 10 ^ maxScale := abs_mul_pow _ _
      _ ≤ |d.toRat / 10 ^ power| * 10 ^ (d.scale + power) :=
          mul_le_mul_of_nonneg_left (pow_le_pow_right₀ (by norm_num) hmany) (abs_nonneg _)
      _ = |(d.mantissa : ℚ)| := by rw [← abs_mul_pow, hall]
      _ = d.mantissa.natAbs := by rw [Nat.cast_natAbs, Int.cast_abs]

/-- A quotient by a power of ten is off by half of its last place, and by nothing if it ends there. -/
theorem exists_div?_powerOfTen (d : Decimal) {power : Nat} (h : power ≤ maxScale) :
    ∃ q, d.div? (powerOfTen power h) = some q ∧
      |q.toRat - d.toRat / 10 ^ power| ≤ 1 / 2 / 10 ^ maxScale ∧
      (HasPlaces maxScale (d.toRat / 10 ^ power) → q.toRat = d.toRat / 10 ^ power) := by
  have hfactor := toRat_powerOfTen h
  obtain ⟨q, hq⟩ := d.exists_div? (one_le_powerOfTen h)
  obtain ⟨mode, hmode, -, hdiv⟩ := exists_isNearest_div? d (b := powerOfTen power h) (by
    rw [hfactor]
    exact (ten_pow_pos power).ne')
  rw [hq, hfactor, Option.map_some] at hdiv
  set z := d.toRat / 10 ^ power
  refine ⟨q, hq, ?_⟩
  obtain ⟨places, hplaces, hfits, hgrid | rfl⟩ := exists_places_div_pow mode d power
  · have hexact : q.toRat = z :=
      Option.some_inj.1 (hdiv.trans (map_toRat_nearest?_of_fits hplaces hgrid hfits))
    refine ⟨?_, fun _ => hexact⟩
    rw [hexact, sub_self, abs_zero]
    positivity
  · refine ⟨?_, fun hgrid =>
      Option.some_inj.1 (hdiv.trans (map_toRat_nearest?_of_fits le_rfl hgrid hfits))⟩
    have hpow := ten_pow_pos maxScale
    have hvalue : q.toRat = mode.toInt (z * 10 ^ maxScale) / 10 ^ maxScale := by
      rw [nearest?_of_fits le_rfl hfits, Option.map_some, Option.some_inj] at hdiv
      exact hdiv
    rw [hvalue, div_sub' hpow.ne', abs_div, abs_of_pos hpow, mul_comm _ z]
    exact div_le_div_of_nonneg_right (Rounding.abs_toInt_nearest_sub_le hmode _) hpow.le

/-- Rounding recovers a number of the grid from any number that is less than half a step off. -/
theorem toRat_roundTo_of_near {places : Nat} (hx : HasPlaces places x)
    (h : |d.toRat - x| < 1 / 2 / 10 ^ places) : (d.roundTo places .halfAway).toRat = x := by
  have hpow := ten_pow_pos places
  obtain ⟨n, hn⟩ := hx
  have hnear : |d.toRat * 10 ^ places - n| < 1 / 2 := by
    rw [← hn, ← sub_mul, abs_mul_pow]
    exact (lt_div_iff₀ hpow).1 h
  rw [toRat_roundTo, Rounding.toInt_halfAway_eq hnear, ← hn, mul_div_cancel_right₀ _ hpow.ne']

end Decimal

end LineCalc
