import LineCalc.Operation.RoundTo
import LineCalc.Proofs.Decimal.RoundingError

/-!
# Rounding to multiples

`floor`, `ceil` and `round` take a number to a multiple of a power of ten: the largest one that is
not above it, the smallest one that is not below it, and the nearest one. Where the power is at least
ten, the number is divided by it first, and that quotient has 28 places at most. So what the number
is rounded to is the right multiple unless the quotient lies within the last of these places of a
number at which the rounding turns.

* **`RoundFunction.Rounds`**: what a number is rounded to, in terms of the multiples of a step. There
  is one such number only (`RoundFunction.Rounds.unique`).
* **`RoundFunction.rounds_toInt`**: each function rounds the quotient by the step to an integer.
* **`RoundFunction.Clear`**: the number lies at a turn of the rounding, or far enough from any.
* **`RoundFunction.onValues_rounds`**: the result is the right multiple, or that is out of range.
-/

namespace LineCalc

/-! ## Rounding to integers -/

namespace Rounding

variable {num : Int} {den : Nat}

/-- A half goes up from zero on, and down below it. -/
theorem two_mul_divide_halfAway (num : Int) (hden : 0 < den) :
    (0 ≤ num → -(den : Int) < 2 * (halfAway.divide num den * den - num)) ∧
      (num < 0 → 2 * (halfAway.divide num den * den - num) < den) := by
  obtain ⟨hnonneg, hlt, hquotient, hnext⟩ := quotient_bounds num hden
  simp only [divide]
  (repeat' split) <;> constructor <;> omega

theorem toInt_ceiling (x : ℚ) : ceiling.toInt x = ⌈x⌉ := by
  symm
  rw [Int.ceil_eq_iff]
  constructor
  · rcases ceiling.toInt_eq_floor_or_next x with h | ⟨h, hlt⟩ <;> rw [h]
    · linarith [Int.floor_le x]
    · push_cast
      linarith
  · have hden : (0 : ℚ) < x.den := by exact_mod_cast x.den_pos
    have hle : x.num ≤ ceiling.toInt x * x.den := by
      obtain ⟨hnonneg, hlt, hquotient, hnext⟩ := quotient_bounds x.num x.den_pos
      simp only [toInt, divide]
      split <;> omega
    have hcast : (x.num : ℚ) ≤ ceiling.toInt x * x.den := by exact_mod_cast hle
    rw [← Rat.mul_den_eq_num x] at hcast
    exact le_of_mul_le_mul_right hcast hden

theorem toInt_halfAway_of_half (x : ℚ) :
    (0 ≤ x → -(1 / 2) < (halfAway.toInt x : ℚ) - x) ∧
      (x < 0 → (halfAway.toInt x : ℚ) - x < 1 / 2) := by
  have hden : (0 : ℚ) < x.den := by exact_mod_cast x.den_pos
  obtain ⟨hup, hdown⟩ := two_mul_divide_halfAway x.num x.den_pos
  have hnum : x * x.den = x.num := Rat.mul_den_eq_num x
  refine ⟨fun hx => ?_, fun hx => ?_⟩
  · have hlt : -(x.den : ℚ) < 2 * (halfAway.toInt x * x.den - x.num) := by
      exact_mod_cast hup (Rat.num_nonneg.2 hx)
    rw [← hnum, ← sub_mul] at hlt
    exact lt_of_mul_lt_mul_right (by linarith) hden.le
  · have hlt : 2 * (halfAway.toInt x * x.den - x.num) < (x.den : ℚ) := by
      exact_mod_cast hdown (Rat.num_neg.2 hx)
    rw [← hnum, ← sub_mul] at hlt
    exact lt_of_mul_lt_mul_right (by linarith) hden.le

theorem toInt_halfAway_eq_zero_iff {x : ℚ} : halfAway.toInt x = 0 ↔ |x| < 1 / 2 := by
  constructor
  · intro hzero
    have hle := abs_toInt_nearest_sub_le (.inr rfl) x
    obtain ⟨hup, hdown⟩ := toInt_halfAway_of_half x
    rw [hzero, Int.cast_zero, zero_sub] at hle hup hdown
    rw [abs_neg, abs_le] at hle
    rcases le_or_gt 0 x with hx | hx
    · exact abs_lt.2 ⟨by linarith, by linarith [hup hx]⟩
    · exact abs_lt.2 ⟨by linarith [hdown hx], by linarith⟩
  · intro h
    exact toInt_halfAway_eq (by rwa [Int.cast_zero, sub_zero])

/-- Two integers that are as near as half a step are on either side. -/
theorem halves_of_near {x : ℚ} {r n : Int} (hne : n ≠ r) (hr : |x - r| ≤ 1 / 2)
    (hn : |x - n| ≤ 1 / 2) :
    ((r : ℚ) = x + 1 / 2 ∧ (n : ℚ) = x - 1 / 2) ∨ ((r : ℚ) = x - 1 / 2 ∧ (n : ℚ) = x + 1 / 2) := by
  obtain ⟨hrlow, hrhigh⟩ := abs_le.1 hr
  obtain ⟨hnlow, hnhigh⟩ := abs_le.1 hn
  rcases lt_or_gt_of_ne hne with hless | hmore
  · have hstep : (n : ℚ) + 1 ≤ r := by exact_mod_cast hless
    exact .inl ⟨by linarith, by linarith⟩
  · have hstep : (r : ℚ) + 1 ≤ n := by exact_mod_cast hmore
    exact .inr ⟨by linarith, by linarith⟩

/-- No integer is nearer, and one that is as near is not farther from zero. -/
theorem toInt_halfAway_nearest (x : ℚ) (n : Int) :
    |x - halfAway.toInt x| < |x - n| ∨
      (|x - halfAway.toInt x| = |x - n| ∧ |(n : ℚ)| ≤ |(halfAway.toInt x : ℚ)|) := by
  obtain ⟨hup, hdown⟩ := toInt_halfAway_of_half x
  have hhalf : |x - halfAway.toInt x| ≤ 1 / 2 := by
    rw [abs_sub_comm]
    exact abs_toInt_nearest_sub_le (.inr rfl) x
  set r := halfAway.toInt x
  rcases eq_or_ne n r with rfl | hne
  · exact .inr ⟨rfl, le_rfl⟩
  rcases lt_or_ge |x - r| |x - n| with hnearer | hnear
  · exact .inl hnearer
  right
  rcases halves_of_near hne hhalf (hnear.trans hhalf) with ⟨hr, hn⟩ | ⟨hr, hn⟩ <;> rw [hr, hn]
  · have hx : 0 ≤ x := not_lt.1 fun hneg => by linarith [hdown hneg]
    refine ⟨by rw [sub_add_cancel_left, sub_sub_cancel, abs_neg], ?_⟩
    rw [abs_of_nonneg (by linarith : 0 ≤ x + 1 / 2)]
    exact abs_le.2 ⟨by linarith, by linarith⟩
  · have hx : x < 0 := not_le.1 fun hpos => by linarith [hup hpos]
    refine ⟨by rw [sub_add_cancel_left, sub_sub_cancel, abs_neg], ?_⟩
    rw [abs_of_neg (by linarith : x - 1 / 2 < 0)]
    exact abs_le.2 ⟨by linarith, by linarith⟩

end Rounding

namespace RoundFunction

/-! ## Multiples of a step -/

def IsMultiple (step x : ℚ) : Prop :=
  ∃ n : Int, x = n * step

/--
What a number is rounded to: the largest multiple that is not above it, the smallest one that is not
below it, or the nearest one, which is the one farther from zero where two are as near.
-/
def Rounds (f : RoundFunction) (step x r : ℚ) : Prop :=
  match f with
  | floor => IsGreatest {y | IsMultiple step y ∧ y ≤ x} r
  | ceil => IsLeast {y | IsMultiple step y ∧ x ≤ y} r
  | round => IsMultiple step r ∧ ∀ y, IsMultiple step y →
      |x - r| < |x - y| ∨ (|x - r| = |x - y| ∧ |y| ≤ |r|)

variable {f : RoundFunction} {step x : ℚ}

theorem rounds_toInt (f : RoundFunction) (hstep : 0 < step) (x : ℚ) :
    f.Rounds step x (f.mode.toInt (x / step) * step) := by
  have hx : x = x / step * step := (div_mul_cancel₀ x hstep.ne').symm
  cases f with
  | floor =>
    rw [mode, Rounding.toInt_floor]
    refine ⟨⟨⟨_, rfl⟩, ?_⟩, ?_⟩
    · rw [← le_div_iff₀ hstep]
      exact Int.floor_le _
    · rintro _ ⟨⟨n, rfl⟩, hle⟩
      rw [← le_div_iff₀ hstep] at hle
      exact mul_le_mul_of_nonneg_right (Int.cast_le.2 (Int.le_floor.2 hle)) hstep.le
  | ceil =>
    rw [mode, Rounding.toInt_ceiling]
    refine ⟨⟨⟨_, rfl⟩, ?_⟩, ?_⟩
    · rw [← div_le_iff₀ hstep]
      exact Int.le_ceil _
    · rintro _ ⟨⟨n, rfl⟩, hle⟩
      rw [← div_le_iff₀ hstep] at hle
      exact mul_le_mul_of_nonneg_right (Int.cast_le.2 (Int.ceil_le.2 hle)) hstep.le
  | round =>
    refine ⟨⟨_, rfl⟩, ?_⟩
    rintro _ ⟨n, rfl⟩
    have hscaled : ∀ m : Int, |x - m * step| = |x / step - m| * step := by
      intro m
      rw [← abs_of_pos hstep, ← abs_mul, abs_of_pos hstep, sub_mul, ← hx]
    rw [hscaled, hscaled, abs_mul, abs_mul, abs_of_pos hstep]
    rcases Rounding.toInt_halfAway_nearest (x / step) n with hnearer | ⟨hnear, hzero⟩
    · exact .inl (mul_lt_mul_of_pos_right hnearer hstep)
    · exact .inr ⟨congrArg (· * step) hnear, mul_le_mul_of_nonneg_right hzero hstep.le⟩

/-- A number is rounded to one number only. -/
theorem Rounds.unique {r r' : ℚ} (h : f.Rounds step x r) (h' : f.Rounds step x r') : r = r' := by
  cases f with
  | floor => exact IsGreatest.unique h h'
  | ceil => exact IsLeast.unique h h'
  | round =>
    obtain ⟨hr, hnear⟩ := h
    obtain ⟨hr', hnear'⟩ := h'
    obtain ⟨hsame, hsize⟩ : |x - r| = |x - r'| ∧ |r| = |r'| := by
      rcases hnear r' hr' with hlt | ⟨heq, hle⟩ <;>
        rcases hnear' r hr with hlt' | ⟨heq', hle'⟩
      · exact absurd hlt hlt'.not_gt
      · exact absurd heq'.symm hlt.ne
      · exact absurd heq.symm hlt'.ne
      · exact ⟨heq, le_antisymm hle' hle⟩
    rcases abs_eq_abs.1 hsize with heq | hopposite
    · exact heq
    -- zero is a multiple too, and as near as either only where they are zero
    have hzero : |x - r| ≤ |x| := by
      rcases hnear 0 ⟨0, by simp⟩ with hlt | ⟨heq, -⟩
      · simpa using hlt.le
      · simpa using heq.le
    rw [hopposite] at hsame hzero ⊢
    rcases abs_eq_abs.1 hsame with heq | heq
    · linarith
    · have hx : x = 0 := by linarith
      rw [hx, abs_zero, abs_nonpos_iff] at hzero
      linarith

/-! ## Numbers beside a turn -/

/-- The numbers at which rounding to integers turns from one integer to the next. -/
def TurnsAt (f : RoundFunction) (c : ℚ) : Prop :=
  match f with
  | floor | ceil => ∃ n : Int, c = n
  | round => ∃ n : Int, c = n + 1 / 2

/-- A number that is as far from every turn as another one may be from it is rounded like it. -/
theorem toInt_eq_of_near {z w bound : ℚ} (hnear : |w - z| ≤ bound) (hturn : f.TurnsAt z → w = z)
    (hclear : ∀ c, f.TurnsAt c → c = z ∨ bound < |z - c|) : f.mode.toInt w = f.mode.toInt z := by
  by_cases hz : f.TurnsAt z
  · rw [hturn hz]
  have hside : ∀ c, f.TurnsAt c → (c < z → c < w) ∧ (z < c → w < c) := by
    intro c hc
    rcases hclear c hc with rfl | hfar
    · exact absurd hc hz
    obtain ⟨hlow, hhigh⟩ := abs_le.1 hnear
    refine ⟨fun hlt => ?_, fun hlt => ?_⟩
    · rw [abs_of_pos (sub_pos.2 hlt)] at hfar
      linarith
    · rw [abs_of_neg (sub_neg.2 hlt)] at hfar
      linarith
  cases f with
  | floor =>
    rw [mode, Rounding.toInt_floor, Rounding.toInt_floor, Int.floor_eq_iff]
    have hbelow : (⌊z⌋ : ℚ) < z := lt_of_le_of_ne (Int.floor_le z) fun h => hz ⟨⌊z⌋, h.symm⟩
    exact ⟨((hside _ ⟨⌊z⌋, rfl⟩).1 hbelow).le,
      (hside _ ⟨⌊z⌋ + 1, by push_cast; rfl⟩).2 (Int.lt_floor_add_one z)⟩
  | ceil =>
    rw [mode, Rounding.toInt_ceiling, Rounding.toInt_ceiling, Int.ceil_eq_iff]
    have habove : z < ⌈z⌉ := lt_of_le_of_ne (Int.le_ceil z) fun h => hz ⟨⌈z⌉, h⟩
    have hbelow : (⌈z⌉ : ℚ) - 1 < z := by linarith [Int.ceil_lt_add_one z]
    exact ⟨(hside _ ⟨⌈z⌉ - 1, by push_cast; rfl⟩).1 hbelow,
      ((hside _ ⟨⌈z⌉, rfl⟩).2 habove).le⟩
  | round =>
    change Rounding.halfAway.toInt w = Rounding.halfAway.toInt z
    set n := Rounding.halfAway.toInt z
    obtain ⟨hbelow, habove⟩ := abs_le.1 (Rounding.abs_toInt_nearest_sub_le (.inr rfl) z)
    have hup : RoundFunction.round.TurnsAt (n + 1 / 2) := ⟨n, rfl⟩
    have hdown : RoundFunction.round.TurnsAt (n - 1 / 2) := ⟨n - 1, by push_cast; ring⟩
    have hhigh : w < n + 1 / 2 := (hside _ hup).2 (lt_of_le_of_ne (by linarith) fun h => hz (h ▸ hup))
    have hlow : n - 1 / 2 < w :=
      (hside _ hdown).1 (lt_of_le_of_ne (by linarith) fun h => hz (h ▸ hdown))
    exact Rounding.toInt_halfAway_eq (abs_lt.2 ⟨by linarith, by linarith⟩)

/-! ## Steps -/

/-- What a number is a multiple of that is rounded to so many decimal places. -/
def stepOf (places : Int) : ℚ :=
  10 ^ (-places)

/--
What the last place of the quotient by a step comes to. No quotient is taken where the step is below
ten or out of range.
-/
def lastPlace (places : Int) : ℚ :=
  if -(maxScale : Int) ≤ places ∧ places < 0 then stepOf places / 10 ^ maxScale else 0

/-- The number lies where the rounding turns, or farther from there than the quotient may be off. -/
def Clear (f : RoundFunction) (places : Int) (x : ℚ) : Prop :=
  ∀ c, f.TurnsAt c → c * stepOf places = x ∨ lastPlace places / 2 < |x - c * stepOf places|

variable {d : Decimal}

theorem stepOf_pos (places : Int) : 0 < stepOf places :=
  zpow_pos (by norm_num) _

theorem stepOf_neg (n : Nat) : stepOf (-(n : Int)) = 10 ^ n := by
  rw [stepOf, neg_neg, zpow_natCast]

theorem stepOf_natCast (n : Nat) : stepOf n = 1 / 10 ^ n := by
  rw [stepOf, zpow_neg, zpow_natCast, one_div]

theorem TurnsAt.hasPlaces {c : ℚ} (hc : f.TurnsAt c) {n : Nat} (hn : n ≠ 0) : HasPlaces n c := by
  obtain ⟨n, rfl⟩ := Nat.exists_eq_succ_of_ne_zero hn
  refine HasPlaces.mono (m := 1) ?_ (by omega)
  cases f with
  | floor | ceil =>
    obtain ⟨k, rfl⟩ := hc
    exact ⟨k * 10, by push_cast; ring⟩
  | round =>
    obtain ⟨k, rfl⟩ := hc
    exact ⟨k * 10 + 5, by push_cast; ring⟩

/-- What comes of rounding to a number: this number, or that it is out of range. -/
def Reaches (r : ℚ) (result : Except EvalError Decimal) : Prop :=
  match result with
  | .ok d => d.toRat = r
  | .error e => e = .overflow ∧ (mantissaBound : ℚ) ≤ |r|

/-! ## Decimal places -/

theorem reaches_roundTo (f : RoundFunction) (d : Decimal) (n : Nat) :
    Reaches (f.mode.toInt (d.toRat / stepOf n) * stepOf n) (.ok (d.roundTo n f.mode)) := by
  rw [Reaches, Decimal.toRat_roundTo, stepOf_natCast, div_div_eq_mul_div, div_one, mul_one_div]

/-! ## Powers of ten in range -/

theorem reaches_mul? {n : Int} {power : Nat} (h : power ≤ maxScale) (hd : d.toRat = n) :
    Reaches (n * 10 ^ power) (inRange (d.mul? (Decimal.powerOfTen power h))) := by
  have hmul := Decimal.map_toRat_mul? d (Decimal.powerOfTen power h)
  rw [Decimal.toRat_powerOfTen, hd] at hmul
  have hgrid : (n : ℚ) * 10 ^ power * 10 ^ 0 = ((n * 10 ^ power : Int) : ℚ) := by
    push_cast
    ring
  by_cases hover : Decimal.Overflows .halfEven (n * 10 ^ power) 0
  · rw [Decimal.Overflows, hgrid, Rounding.toInt_intCast] at hover
    have hlarge : (mantissaBound : ℚ) ≤ |(n : ℚ) * 10 ^ power| := by
      rw [← mul_one ((n : ℚ) * 10 ^ power), ← pow_zero (10 : ℚ), hgrid, ← Int.cast_abs,
        Int.abs_eq_natAbs, Int.cast_natCast]
      exact Nat.cast_le.2 hover
    rw [Decimal.nearest?_eq_none hlarge, Option.map_none, Option.map_eq_none_iff] at hmul
    rw [hmul]
    exact ⟨rfl, hlarge⟩
  · rw [Decimal.map_toRat_nearest?_of_fits (Nat.zero_le _) ⟨_, hgrid⟩ hover] at hmul
    obtain ⟨product, hproduct, hvalue⟩ := Option.map_eq_some_iff.1 hmul
    rw [hproduct]
    exact hvalue

/-- The quotient is rounded, and where the number is clear that is as good as the exact one. -/
theorem reaches_toPower (f : RoundFunction) (d : Decimal) {power : Nat} (hpos : power ≠ 0)
    (h : power ≤ maxScale) :
    ∃ w, |w - d.toRat| ≤ lastPlace (-(power : Int)) / 2 ∧
      (f.Clear (-(power : Int)) d.toRat → f.mode.toInt (w / 10 ^ power) =
        f.mode.toInt (d.toRat / 10 ^ power)) ∧
      Reaches (f.mode.toInt (w / 10 ^ power) * 10 ^ power) (f.toPower d power h) := by
  have hpow := ten_pow_pos power
  have hlast : lastPlace (-(power : Int)) / 2 = 1 / 2 / 10 ^ maxScale * 10 ^ power := by
    rw [lastPlace, if_pos ⟨by omega, by omega⟩, stepOf_neg]
    ring
  have hx : d.toRat = d.toRat / 10 ^ power * 10 ^ power := (div_mul_cancel₀ _ hpow.ne').symm
  obtain ⟨q, hq, hnear, hexact⟩ := d.exists_div?_powerOfTen h
  refine ⟨q.toRat * 10 ^ power, ?_, fun hclear => ?_, ?_⟩
  · rw [hlast]
    nth_rewrite 1 [hx]
    rw [← sub_mul, abs_mul, abs_of_pos hpow]
    exact mul_le_mul_of_nonneg_right hnear hpow.le
  · rw [mul_div_cancel_right₀ _ hpow.ne']
    refine toInt_eq_of_near hnear (fun hturn => hexact (hturn.hasPlaces (by decide))) ?_
    intro c hc
    rcases hclear c hc with hat | hfar
    · left
      rw [← hat, stepOf_neg, mul_div_cancel_right₀ _ hpow.ne']
    · right
      rw [hlast, stepOf_neg] at hfar
      nth_rewrite 1 [hx] at hfar
      rw [← sub_mul, abs_mul, abs_of_pos hpow] at hfar
      exact lt_of_mul_lt_mul_right hfar hpow.le
  · have hrounded : (q.roundTo 0 f.mode).toRat = f.mode.toInt q.toRat := by
      rw [Decimal.toRat_roundTo, pow_zero, mul_one, div_one]
    rw [mul_div_cancel_right₀ _ hpow.ne']
    have hrun : f.toPower d power h =
        inRange ((q.roundTo 0 f.mode).mul? (Decimal.powerOfTen power h)) := by
      rw [toPower, hq]
      rfl
    rw [hrun]
    exact reaches_mul? h hrounded

/-! ## Powers of ten out of range -/

theorem abs_toRat_lt (d : Decimal) : |d.toRat| < mantissaBound :=
  d.abs_toRat_le.trans_lt (by exact_mod_cast d.mantissa_lt)

theorem toRat_halfBeyond : halfBeyond.toRat = 1 / 2 * 10 ^ (maxScale + 1) := by
  norm_num [halfBeyond, Decimal.toRat, Decimal.ofInt, maxScale]

/-- The number of steps is zero, or the steps go out of range. -/
theorem vanishes_iff (f : RoundFunction) (d : Decimal) {power : Nat} (h : maxScale < power) :
    f.vanishes d power = true ↔ f.mode.toInt (d.toRat / 10 ^ power) = 0 := by
  have hpow := ten_pow_pos power
  have hsmall : |d.toRat / 10 ^ power| < 1 := by
    rw [abs_div, abs_of_pos hpow, div_lt_one hpow]
    calc |d.toRat| < mantissaBound := abs_toRat_lt d
      _ ≤ 10 ^ (maxScale + 1) := by norm_num [mantissaBound, maxScale]
      _ ≤ 10 ^ power := pow_le_pow_right₀ (by norm_num) h
  obtain ⟨hlow, hhigh⟩ := abs_lt.1 hsmall
  set z := d.toRat / 10 ^ power with hz
  cases f with
  | ceil =>
    change d.le .zero = true ↔ Rounding.ceiling.toInt z = 0
    rw [Decimal.le_iff_toRat, Decimal.toRat_zero, Rounding.toInt_ceiling, Int.ceil_eq_zero_iff, hz,
      Set.mem_Ioc, div_le_iff₀ hpow, zero_mul, and_iff_right hlow]
  | floor =>
    change Decimal.zero.le d = true ↔ Rounding.floor.toInt z = 0
    rw [Decimal.le_iff_toRat, Decimal.toRat_zero, Rounding.toInt_floor, Int.floor_eq_zero_iff, hz,
      Set.mem_Ico, le_div_iff₀ hpow, zero_mul, and_iff_left hhigh]
  | round =>
    change (maxScale + 1 < power || d.abs.lt halfBeyond) = true ↔ Rounding.halfAway.toInt z = 0
    rw [Bool.or_eq_true, decide_eq_true_eq, Decimal.lt_iff_toRat, Decimal.toRat_abs,
      toRat_halfBeyond, Rounding.toInt_halfAway_eq_zero_iff, hz, abs_div, abs_of_pos hpow,
      div_lt_iff₀ hpow]
    rcases Nat.lt_or_eq_of_le (show maxScale + 1 ≤ power from h) with hbeyond | rfl
    · refine iff_of_true (.inl hbeyond) ?_
      calc |d.toRat| < mantissaBound := abs_toRat_lt d
        _ ≤ 1 / 2 * 10 ^ (maxScale + 2) := by norm_num [mantissaBound, maxScale]
        _ ≤ 1 / 2 * 10 ^ power :=
            mul_le_mul_of_nonneg_left (pow_le_pow_right₀ (by norm_num) hbeyond) (by norm_num)
    · rw [or_iff_right (lt_irrefl _)]

theorem reaches_beyond (f : RoundFunction) (d : Decimal) {power : Nat} (h : maxScale < power) :
    Reaches (f.mode.toInt (d.toRat / 10 ^ power) * 10 ^ power)
      (if f.vanishes d power then .ok .zero else .error .overflow) := by
  split
  · rename_i hvanishes
    rw [Reaches, (f.vanishes_iff d h).1 hvanishes, Decimal.toRat_zero, Int.cast_zero, zero_mul]
  · rename_i hstays
    rw [vanishes_iff f d h] at hstays
    have hone : (1 : ℚ) ≤ |(f.mode.toInt (d.toRat / 10 ^ power) : ℚ)| := by
      exact_mod_cast Int.one_le_abs hstays
    refine ⟨rfl, ?_⟩
    calc (mantissaBound : ℚ) ≤ 10 ^ (maxScale + 1) := by norm_num [mantissaBound, maxScale]
      _ ≤ 10 ^ power := pow_le_pow_right₀ (by norm_num) h
      _ ≤ |(f.mode.toInt (d.toRat / 10 ^ power) : ℚ)| * 10 ^ power :=
          le_mul_of_one_le_left (ten_pow_pos power).le hone
      _ = |(f.mode.toInt (d.toRat / 10 ^ power) : ℚ) * 10 ^ power| := by
          rw [abs_mul, abs_of_pos (ten_pow_pos power)]

/-- A number is clear where its quotient by the step needs no more places than there are. -/
theorem clear_of_scale_add_le (f : RoundFunction) {n : Nat} (h : d.scale + n ≤ maxScale) :
    f.Clear (-(n : Int)) d.toRat := by
  intro c hc
  have hstep := ten_pow_pos n
  have hpow := ten_pow_pos maxScale
  have hlast : lastPlace (-(n : Int)) ≤ 10 ^ n / 10 ^ maxScale := by
    rw [lastPlace, stepOf_neg]
    split
    · exact le_rfl
    · positivity
  obtain ⟨i, hi⟩ := hc.hasPlaces (n := maxScale) (by decide)
  obtain ⟨j, hj⟩ := d.hasPlaces_toRat.mono (show d.scale ≤ maxScale - n by omega)
  -- the distance in last places is an integer
  have hdistance : d.toRat - c * 10 ^ n = ((j - i : Int) : ℚ) * (10 ^ n / 10 ^ maxScale) := by
    have hsplit : (10 : ℚ) ^ maxScale = 10 ^ (maxScale - n) * 10 ^ n := by
      rw [← pow_add, Nat.sub_add_cancel (by omega)]
    rw [← mul_div_assoc, eq_div_iff hpow.ne', Int.cast_sub, ← hi, ← hj, sub_mul, sub_mul, hsplit]
    ring
  rw [stepOf_neg, hdistance, abs_mul, abs_of_pos (div_pos hstep hpow)]
  rcases eq_or_ne j i with rfl | hne
  · left
    rw [sub_self, Int.cast_zero, zero_mul] at hdistance
    linarith
  · right
    have hone : (1 : ℚ) ≤ |((j - i : Int) : ℚ)| := by
      exact_mod_cast Int.one_le_abs (sub_ne_zero.2 hne)
    calc lastPlace (-(n : Int)) / 2 ≤ 10 ^ n / 10 ^ maxScale / 2 := by linarith
      _ < 10 ^ n / 10 ^ maxScale := half_lt_self (div_pos hstep hpow)
      _ ≤ |((j - i : Int) : ℚ)| * (10 ^ n / 10 ^ maxScale) :=
          le_mul_of_one_le_left (div_pos hstep hpow).le hone

/-! ## The functions -/

/--
The multiple that a decimal is rounded to. It is that of the decimal, but for a quotient that was
rounded across a turn; then it is that of the quotient.
-/
theorem reaches_onDecimal (f : RoundFunction) (d : Decimal) (places : Int) :
    ∃ w, |w - d.toRat| ≤ lastPlace places / 2 ∧ (f.Clear places d.toRat → w = d.toRat) ∧
      Reaches (f.mode.toInt (w / stepOf places) * stepOf places) (f.onDecimal d places) := by
  have hlast : 0 ≤ lastPlace places / 2 := by
    have hstep := stepOf_pos places
    unfold lastPlace
    split <;> positivity
  have hself : |d.toRat - d.toRat| ≤ lastPlace places / 2 := by rwa [sub_self, abs_zero]
  unfold onDecimal
  split
  · rename_i hplaces
    obtain ⟨n, rfl⟩ := Int.eq_ofNat_of_zero_le hplaces
    exact ⟨d.toRat, hself, fun _ => rfl, f.reaches_roundTo d n⟩
  obtain ⟨power, rfl⟩ : ∃ power : Nat, places = -(power : Int) := ⟨(-places).toNat, by omega⟩
  simp only [Int.neg_neg, Int.toNat_natCast, stepOf_neg]
  split
  · rename_i hneg h
    obtain ⟨w, hnear, hclear, hreaches⟩ := f.reaches_toPower d (by omega) h
    by_cases hd : f.Clear (-(power : Int)) d.toRat
    · exact ⟨d.toRat, hself, fun _ => rfl, hclear hd ▸ hreaches⟩
    · exact ⟨w, hnear, fun h => absurd h hd, hreaches⟩
  · rename_i hbeyond
    exact ⟨d.toRat, hself, fun _ => rfl, f.reaches_beyond d (by omega)⟩

/--
A rounding function keeps the unit and gives the multiple that the number is to be rounded to, unless
that is too large. Where the number is not clear, it may be the multiple for a number that is half of
the last place of the quotient away.
-/
theorem onValues_rounds (f : RoundFunction) (q p : Quantity)
    (hplaces : placesInRange p.value.truncate = true) :
    ∃ w, |w - q.value.toRat| ≤ lastPlace p.value.truncate / 2 ∧
      (f.Clear p.value.truncate q.value.toRat → w = q.value.toRat) ∧
      match f.onValues (.number q) (.number p) with
      | .ok v => ∃ d, v = .number ⟨d, q.unit⟩ ∧ f.Rounds (stepOf p.value.truncate) w d.toRat
      | .error e => e = .overflow ∧
        ∃ r, f.Rounds (stepOf p.value.truncate) w r ∧ (mantissaBound : ℚ) ≤ |r| := by
  obtain ⟨w, hnear, hclear, hreaches⟩ := f.reaches_onDecimal q.value p.value.truncate
  refine ⟨w, hnear, hclear, ?_⟩
  have hrounds := f.rounds_toInt (stepOf_pos p.value.truncate) w
  have hrun : f.onValues (.number q) (.number p) =
      (f.onDecimal q.value p.value.truncate).map fun d => .number ⟨d, q.unit⟩ := by
    have hguard : (!placesInRange p.value.truncate) = false := by rw [hplaces, Bool.not_true]
    simp only [onValues, Value.expectNumber, bind, Except.bind, hguard, Bool.false_eq_true, if_false,
      pure, Except.pure, Except.map]
  rw [hrun]
  cases hresult : f.onDecimal q.value p.value.truncate with
  | ok d =>
    rw [hresult] at hreaches
    exact ⟨d, rfl, (show d.toRat = _ from hreaches) ▸ hrounds⟩
  | error e =>
    rw [hresult] at hreaches
    exact ⟨hreaches.1, _, hrounds, hreaches.2⟩

/-- A percentage halfway between two hundreds goes away from zero. -/
theorem onValues_rounds_tie :
    placesInRange (Decimal.ofInt (-2)).truncate = true ∧
      ∃ d, round.onValues (.number ⟨.ofInt (-1250), .percent⟩) (Value.plain (.ofInt (-2))) =
        .ok (.number ⟨d, .percent⟩) ∧ d.toRat = -1300 := by
  refine ⟨by decide, ?_⟩
  obtain ⟨w, -, hclear, hresult⟩ :=
    onValues_rounds round ⟨.ofInt (-1250), .percent⟩ ⟨.ofInt (-2), .unitless⟩ (by decide)
  have hplaces : (Decimal.ofInt (-2)).truncate = -(2 : Nat) := by decide
  have hvalue : (Decimal.ofInt (-1250)).toRat = -1250 := by norm_num [Decimal.toRat, Decimal.ofInt]
  simp only [hplaces] at hclear hresult
  obtain rfl := hclear (round.clear_of_scale_add_le (by decide))
  rw [hvalue, stepOf_neg] at hresult
  have hrounds : round.Rounds (10 ^ 2) (-1250) (-1300) := by
    have hsteps : Rounding.halfAway.toInt (-1250 / 10 ^ 2) = -13 := by decide +kernel
    have h : round.Rounds (10 ^ 2) (-1250)
        (Rounding.halfAway.toInt (-1250 / 10 ^ 2) * 10 ^ 2) :=
      round.rounds_toInt (by norm_num) (-1250)
    rw [hsteps] at h
    norm_num at h ⊢
    exact h
  cases hrun : round.onValues (.number ⟨.ofInt (-1250), .percent⟩) (Value.plain (.ofInt (-2))) with
  | ok v =>
    rw [Value.plain] at hrun
    rw [hrun] at hresult
    obtain ⟨d, rfl, hd⟩ := hresult
    exact ⟨d, rfl, hd.unique hrounds⟩
  | error e =>
    rw [Value.plain] at hrun
    rw [hrun] at hresult
    obtain ⟨-, r, hr, hlarge⟩ := hresult
    rw [hr.unique hrounds] at hlarge
    norm_num [mantissaBound] at hlarge

end RoundFunction

end LineCalc
