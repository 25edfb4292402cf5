import LineCalc.Decimal.Division
import LineCalc.Proofs.Decimal.Rational

/-!
# Products and quotients of decimals

Products and quotients come back into range by one rule, and which number the rule gives depends on
the exact result only: not on how the operands are written, and not on where a long division stops.

* **`Decimal.nearest?`**: the decimal that the rule makes of a rational number.
* **`Decimal.map_toRat_nearest?_toRat`**: it is the number itself where that is a decimal.
* **`Decimal.map_toRat_mul?`**: a product is what the rule makes of the exact product.
* **`Decimal.map_toRat_div?`**: a quotient is what the rule makes of the exact quotient, for some
  way to round a half, and to the even neighbour when the divisor has at most 64 bits.
-/

namespace LineCalc

/-- The ways to round to the nearest integer, which differ in a half only. -/
def Rounding.IsNearest (mode : Rounding) : Prop :=
  mode = .halfEven ∨ mode = .halfAway

theorem Rounding.natAbs_toInt_le (mode : Rounding) {n : Nat} {x : ℚ} (h : |x| ≤ n) :
    (mode.toInt x).natAbs ≤ n := by
  obtain ⟨hlow, hhigh⟩ := abs_le.1 h
  have hle : mode.toInt x ≤ n := mode.toInt_le (by exact_mod_cast hhigh)
  have hge : -(n : Int) ≤ mode.toInt x := mode.le_toInt (by push_cast; exact hlow)
  omega

theorem Rounding.le_natAbs_toInt (mode : Rounding) {n : Nat} {x : ℚ} (h : (n : ℚ) ≤ |x|) :
    n ≤ (mode.toInt x).natAbs := by
  rcases le_abs.1 h with hpos | hneg
  · have hle : (n : Int) ≤ mode.toInt x := mode.le_toInt (by exact_mod_cast hpos)
    omega
  · have hle : mode.toInt x ≤ -(n : Int) := mode.toInt_le (by push_cast; linarith)
    omega

theorem HasPlaces.of_abs {places : Nat} {x : ℚ} (h : HasPlaces places |x|) : HasPlaces places x := by
  rcases abs_choice x with habs | habs
  · exact habs ▸ h
  · rw [habs] at h
    exact neg_neg x ▸ h.neg

namespace Decimal

/-! ## The rule -/

/-- The decimal that stands for a number, with at most so many places, if the number is in range. -/
def nearest? (mode : Rounding) (x : ℚ) (limit : Nat) : Option Decimal :=
  fit? mode x.num x.den limit

/-- Too large for a decimal that has so many places. -/
def Overflows (mode : Rounding) (x : ℚ) (places : Nat) : Prop :=
  mantissaBound ≤ (mode.toInt (x * 10 ^ places)).natAbs

variable {mode : Rounding} {x : ℚ} {limit places : Nat} {a b d : Decimal}

theorem divide_mul_pow10 (mode : Rounding) (num : Int) {den : Nat} (hden : 0 < den) (places : Nat) :
    mode.divide (num * pow10 places) den = mode.toInt (num / den * 10 ^ places) := by
  rw [Rounding.divide_eq_toInt _ _ hden]
  push_cast
  rw [cast_pow10, div_mul_eq_mul_div]

theorem ofScaled?_of_fits {m : Int} (hplaces : places ≤ maxScale) (h : m.natAbs < mantissaBound) :
    ofScaled? m places = some (ofScaled m places h hplaces) := by
  simp [ofScaled?, h, hplaces]

theorem ofScaled?_of_overflow {m : Int} (h : mantissaBound ≤ m.natAbs) :
    ofScaled? m places = none := by
  simp [ofScaled?, Nat.not_lt.2 h]

/-- A number of things is a decimal if it is in range. -/
theorem exists_count {n : Nat} (hn : n < mantissaBound) :
    ∃ d, ofScaled? n 0 = some d ∧ d.toRat = n := by
  have hfits : (n : Int).natAbs < mantissaBound := by rwa [Int.natAbs_natCast]
  refine ⟨ofScaled n 0 hfits (Nat.zero_le _), ofScaled?_of_fits (Nat.zero_le _) hfits, ?_⟩
  simp [toRat, ofScaled]

/-- The rule asks for the number only, not for the fraction that it is given as. -/
theorem fit?_eq_nearest? (mode : Rounding) (num : Int) {den : Nat} (hden : 0 < den) (limit : Nat) :
    fit? mode num den limit = nearest? mode (num / den) limit := by
  set x : ℚ := num / den with hx
  unfold nearest?
  induction limit with
  | zero => rw [fit?, fit?, Rounding.divide_eq_toInt _ _ hden, ← hx, Rounding.toInt]
  | succ limit ih =>
    have hscaled : mode.divide (num * pow10 (limit + 1)) den =
        mode.divide (x.num * pow10 (limit + 1)) x.den := by
      rw [divide_mul_pow10 _ _ hden, divide_mul_pow10 _ _ x.den_pos, ← hx, Rat.num_div_den]
    rw [fit?, fit?, hscaled, ih]

theorem nearest?_of_overflows_zero (h : Overflows mode x 0) : nearest? mode x 0 = none := by
  rw [Overflows, pow_zero, mul_one] at h
  exact ofScaled?_of_overflow h

theorem nearest?_of_overflows_succ (h : Overflows mode x (places + 1)) :
    nearest? mode x (places + 1) = nearest? mode x places := by
  have hmantissa : mode.divide (x.num * pow10 (places + 1)) x.den =
      mode.toInt (x * 10 ^ (places + 1)) := by
    rw [divide_mul_pow10 _ _ x.den_pos, Rat.num_div_den]
  rw [nearest?, fit?, hmantissa, ofScaled?_of_overflow h, nearest?]

/-- Where the number is in range with the places of the limit, it gets them. -/
theorem nearest?_of_fits (hplaces : places ≤ maxScale) (h : ¬ Overflows mode x places) :
    nearest? mode x places =
      some (ofScaled (mode.toInt (x * 10 ^ places)) places (Nat.not_le.1 h) hplaces) := by
  cases places with
  | zero =>
    have hzero : (mode.toInt x).natAbs < mantissaBound := by
      rw [Overflows, pow_zero, mul_one] at h
      exact Nat.not_le.1 h
    have hfit : nearest? mode x 0 = some (ofScaled (mode.toInt x) 0 hzero hplaces) :=
      ofScaled?_of_fits hplaces hzero
    rw [hfit]
    simp only [pow_zero, mul_one]
  | succ places =>
    have hmantissa : mode.divide (x.num * pow10 (places + 1)) x.den =
        mode.toInt (x * 10 ^ (places + 1)) := by
      rw [divide_mul_pow10 _ _ x.den_pos, Rat.num_div_den]
    rw [nearest?, fit?, hmantissa, ofScaled?_of_fits hplaces (Nat.not_le.1 h)]

/-- A decimal that the rule gives is the number rounded to its places, and no more places will do. -/
theorem of_nearest?_eq_some (hlimit : limit ≤ maxScale) (h : nearest? mode x limit = some d) :
    d.toRat = mode.toInt (x * 10 ^ d.scale) / 10 ^ d.scale ∧
      ∀ s, d.scale < s → s ≤ limit → Overflows mode x s := by
  induction limit with
  | zero =>
    by_cases hover : Overflows mode x 0
    · rw [nearest?_of_overflows_zero hover] at h
      cases h
    · rw [nearest?_of_fits hlimit hover] at h
      cases h
      exact ⟨rfl, fun s hlow hhigh => by omega⟩
  | succ limit ih =>
    by_cases hover : Overflows mode x (limit + 1)
    · rw [nearest?_of_overflows_succ hover] at h
      obtain ⟨hvalue, hmore⟩ := ih (by omega) h
      refine ⟨hvalue, fun s hlow hhigh => ?_⟩
      rcases Nat.lt_or_eq_of_le hhigh with hless | rfl
      · exact hmore s hlow (by omega)
      · exact hover
    · rw [nearest?_of_fits hlimit hover] at h
      cases h
      refine ⟨rfl, fun s (hlow : limit + 1 < s) hhigh => ?_⟩
      omega

/-- The rule does not go below a number of the grid that it rounds to. -/
theorem le_toRat_of_nearest? {y : ℚ} (hlimit : limit ≤ maxScale) (h : nearest? mode x limit = some d)
    (hy : HasPlaces d.scale y) (hle : y ≤ x) : y ≤ d.toRat := by
  rw [(of_nearest?_eq_some hlimit h).1]
  exact hy.le_toInt_div mode hle

/-- The rule does not go above a number of the grid that it rounds to. -/
theorem toRat_le_of_nearest? {y : ℚ} (hlimit : limit ≤ maxScale) (h : nearest? mode x limit = some d)
    (hy : HasPlaces d.scale y) (hle : x ≤ y) : d.toRat ≤ y := by
  rw [(of_nearest?_eq_some hlimit h).1]
  exact hy.toInt_div_le mode hle

/-- A number that is in range without places comes into range with some. -/
theorem exists_nearest?_of_fits (hlimit : limit ≤ maxScale) (h : ¬ Overflows mode x 0) :
    ∃ d, nearest? mode x limit = some d := by
  induction limit with
  | zero => exact ⟨_, nearest?_of_fits hlimit h⟩
  | succ limit ih =>
    by_cases hover : Overflows mode x (limit + 1)
    · rw [nearest?_of_overflows_succ hover]
      exact ih (by omega)
    · exact ⟨_, nearest?_of_fits hlimit hover⟩

theorem exists_nearest? (mode : Rounding) {n : Nat} (hn : n < mantissaBound) (hx : |x| ≤ n)
    (hlimit : limit ≤ maxScale) : ∃ d, nearest? mode x limit = some d := by
  refine exists_nearest?_of_fits hlimit (Nat.not_le.2 (Nat.lt_of_le_of_lt ?_ hn))
  exact mode.natAbs_toInt_le (by rwa [pow_zero, mul_one])

/-- A number gets all the places with which it is in range. -/
theorem le_scale_of_nearest? (hplaces : places ≤ maxScale) (h : nearest? mode x maxScale = some d)
    (hfits : ¬ Overflows mode x places) : places ≤ d.scale := by
  by_contra hless
  exact hfits ((of_nearest?_eq_some le_rfl h).2 places (by omega) hplaces)

theorem overflows_of_le (h : (mantissaBound : ℚ) ≤ |x * 10 ^ places|) : Overflows mode x places :=
  mode.le_natAbs_toInt h

theorem not_overflows_of_le {n : Nat} (hn : n < mantissaBound) (h : |x * 10 ^ places| ≤ n) :
    ¬ Overflows mode x places :=
  Nat.not_le.2 (Nat.lt_of_le_of_lt (mode.natAbs_toInt_le h) hn)

theorem abs_mul_pow (x : ℚ) (places : Nat) : |x * 10 ^ places| = |x| * 10 ^ places := by
  rw [abs_mul, abs_of_pos (ten_pow_pos places)]

/-- A number that is too large with any number of places does not come into range. -/
theorem nearest?_of_overflows (h : ∀ s, Overflows mode x s) : nearest? mode x limit = none := by
  induction limit with
  | zero => exact nearest?_of_overflows_zero (h 0)
  | succ limit ih => rw [nearest?_of_overflows_succ (h _), ih]

theorem nearest?_eq_none (h : (mantissaBound : ℚ) ≤ |x|) : nearest? mode x limit = none := by
  refine nearest?_of_overflows fun s => overflows_of_le ?_
  calc (mantissaBound : ℚ) ≤ |x| * 1 := by rwa [mul_one]
    _ ≤ |x| * 10 ^ s := mul_le_mul_of_nonneg_left (one_le_pow₀ (by norm_num)) (abs_nonneg x)
    _ = |x * 10 ^ s| := (abs_mul_pow x s).symm

/-- A number of the grid that is in range is kept. -/
theorem map_toRat_nearest?_of_hasPlaces (hplaces : places ≤ maxScale) (hx : HasPlaces places x)
    (h : ¬ Overflows mode x places) : (nearest? mode x places).map toRat = some x := by
  obtain ⟨n, hn⟩ := hx
  rw [nearest?_of_fits hplaces h, Option.map_some, Option.some_inj, toRat_eq_iff]
  simp only [ofScaled]
  rw [hn, Rounding.toInt_intCast]

/-- A number of the grid with fewer places is in range when it is with more. -/
theorem not_overflows_of_succ (hx : HasPlaces places x) (h : ¬ Overflows mode x (places + 1)) :
    ¬ Overflows mode x places := by
  obtain ⟨n, hn⟩ := hx
  have hnext : x * 10 ^ (places + 1) = ((n * 10 : Int) : ℚ) := by
    rw [pow_succ, ← mul_assoc, hn]
    push_cast
    rfl
  rw [Overflows, hnext, Rounding.toInt_intCast] at h
  rw [Overflows, hn, Rounding.toInt_intCast]
  omega

/-- More places make no difference to a number that does not need them or has no room for them. -/
theorem map_toRat_nearest?_of_limit (hlimit : limit ≤ maxScale)
    (h : HasPlaces limit x ∨ ∀ s, limit < s → s ≤ maxScale → Overflows mode x s) :
    (nearest? mode x limit).map toRat = (nearest? mode x maxScale).map toRat := by
  -- one more place at a time, up to the most that there are
  suffices hstep : ∀ s, limit ≤ s → s ≤ maxScale →
      (nearest? mode x s).map toRat = (nearest? mode x limit).map toRat by
    exact (hstep maxScale hlimit le_rfl).symm
  intro s hs
  induction s, hs using Nat.le_induction with
  | base => exact fun _ => rfl
  | succ s hs ih =>
    intro hnext
    rw [← ih (by omega)]
    by_cases hover : Overflows mode x (s + 1)
    · rw [nearest?_of_overflows_succ hover]
    · rcases h with hx | hall
      · have hgrid : HasPlaces s x := hx.mono hs
        rw [map_toRat_nearest?_of_hasPlaces hnext (hgrid.mono (Nat.le_succ s)) hover,
          map_toRat_nearest?_of_hasPlaces (by omega) hgrid (not_overflows_of_succ hgrid hover)]
      · exact absurd (hall (s + 1) (by omega) hnext) hover

/-- A number that is in range with the places that it needs is kept. -/
theorem map_toRat_nearest?_of_fits (hplaces : places ≤ maxScale) (hx : HasPlaces places x)
    (h : ¬ Overflows mode x places) : (nearest? mode x maxScale).map toRat = some x := by
  rw [← map_toRat_nearest?_of_limit hplaces (.inl hx),
    map_toRat_nearest?_of_hasPlaces hplaces hx h]

theorem map_toRat_nearest?_toRat (mode : Rounding) (d : Decimal) :
    (nearest? mode d.toRat maxScale).map toRat = some d.toRat := by
  refine map_toRat_nearest?_of_fits d.scale_le d.hasPlaces_toRat ?_
  rw [Overflows, toRat_mul_pow, Rounding.toInt_intCast]
  exact Nat.not_le.2 d.mantissa_lt

/-- A number whose digits fit with the places that it needs stays as it is. -/
theorem map_toRat_nearest?_of_lt (hplaces : places ≤ maxScale) (hx : HasPlaces places x)
    (h : |x| * 10 ^ places < mantissaBound) : (nearest? mode x maxScale).map toRat = some x := by
  refine map_toRat_nearest?_of_fits hplaces hx ?_
  obtain ⟨n, hn⟩ := hx
  rw [← abs_mul_pow, hn, ← Int.cast_abs, Int.abs_eq_natAbs] at h
  rw [Overflows, hn, Rounding.toInt_intCast]
  exact Nat.not_le.2 (by exact_mod_cast h)

/-! ## Sums -/

theorem map_toRat_add? (a b : Decimal) :
    (a.add? b).map toRat = (nearest? .halfEven (a.toRat + b.toRat) maxScale).map toRat := by
  unfold add?
  split
  · rename_i hzero
    rw [isZero_iff_toRat.1 hzero, zero_add, map_toRat_nearest?_toRat, Option.map_some]
  split
  · rename_i hzero
    rw [isZero_iff_toRat.1 hzero, add_zero, map_toRat_nearest?_toRat, Option.map_some]
  · have ha := ten_pow_pos a.scale
    have hb := ten_pow_pos b.scale
    have hsum : ((a.mantissa * pow10 b.scale + b.mantissa * pow10 a.scale : Int) : ℚ) /
        (pow10 (a.scale + b.scale) : Nat) = a.toRat + b.toRat := by
      push_cast
      rw [cast_pow10, cast_pow10, cast_pow10, pow_add, toRat, toRat,
        div_add_div _ _ ha.ne' hb.ne', mul_comm (10 ^ a.scale) (b.mantissa : ℚ)]
    rw [fit?_eq_nearest? _ _ (pow10_pos _), hsum]
    refine map_toRat_nearest?_of_limit (Nat.max_le.2 ⟨a.scale_le, b.scale_le⟩) (.inl ?_)
    exact (a.hasPlaces_toRat.mono (Nat.le_max_left a.scale b.scale)).add
      (b.hasPlaces_toRat.mono (Nat.le_max_right a.scale b.scale))

/-! ## Products -/

theorem map_toRat_mul? (a b : Decimal) :
    (a.mul? b).map toRat = (nearest? .halfEven (a.toRat * b.toRat) maxScale).map toRat := by
  unfold mul?
  split
  · rename_i hzero
    have hproduct : a.toRat * b.toRat = zero.toRat := by
      rw [Bool.or_eq_true, isZero_iff_toRat, isZero_iff_toRat] at hzero
      rw [toRat_zero, mul_eq_zero]
      exact hzero
    rw [hproduct, map_toRat_nearest?_toRat, Option.map_some]
  · have hproduct : ((a.mantissa * b.mantissa : Int) : ℚ) / (pow10 (a.scale + b.scale) : Nat) =
        a.toRat * b.toRat := by
      push_cast
      rw [cast_pow10, pow_add, toRat, toRat, div_mul_div_comm]
    rw [fit?_eq_nearest? _ _ (pow10_pos _), hproduct]
    apply map_toRat_nearest?_of_limit (Nat.min_le_left _ _)
    rcases Nat.le_total (a.scale + b.scale) maxScale with hle | hge
    · rw [Nat.min_eq_right hle]
      exact .inl (a.hasPlaces_toRat.mul b.hasPlaces_toRat)
    · rw [Nat.min_eq_left hge]
      exact .inr fun s hlow hhigh => by omega

/-! ## Quotients -/

theorem le_mul_ten_of_room_eq_zero {mantissa limit : Nat} (hlimit : limit ≠ 0)
    (h : room mantissa limit = 0) : mantissaBound ≤ mantissa * 10 := by
  induction limit with
  | zero => exact absurd rfl hlimit
  | succ digits ih =>
    unfold room at h
    split at h
    · omega
    · rename_i hfull
      rcases Nat.eq_zero_or_pos digits with rfl | hpos
      · exact Nat.not_lt.1 hfull
      · exact ih (by omega) h

/-- One block of a long division: the digits that it adds to the quotient, and what it leaves over. -/
theorem div_mod_mul_pow10 (m : Nat) {divisor : Nat} (hdivisor : 0 < divisor) (block : Nat) :
    m * pow10 block / divisor =
        m / divisor * pow10 block + m % divisor * pow10 block / divisor ∧
      m * pow10 block % divisor = m % divisor * pow10 block % divisor := by
  have hsplit : m * pow10 block =
      divisor * (m / divisor * pow10 block) + m % divisor * pow10 block := by
    rw [← Nat.mul_assoc, ← Nat.add_mul, Nat.div_add_mod]
  exact ⟨by rw [hsplit, Nat.mul_add_div hdivisor], by rw [hsplit, Nat.mul_add_mod]⟩

/--
Where a long division of `n` stops: nothing is left over, or there are no more places, or one more
place would go past 2^96. A half goes to the even neighbour if the divisor has at most 64 bits.
-/
theorem stop_spec {divisor n k quotient remainder : Nat} (left : Nat) (hdivisor : 0 < divisor)
    (hquotient : quotient = n * pow10 k / divisor) (hremainder : remainder = n * pow10 k % divisor) :
    (∃ taken, (stop divisor quotient remainder left).1 + taken = left ∧
      (n * pow10 (k + taken) % divisor = 0 ∨ (stop divisor quotient remainder left).1 = 0 ∨
        mantissaBound ≤ n * pow10 (k + taken + 1) / divisor)) ∧
      (divisor < wordBound → (stop divisor quotient remainder left).2 = .halfEven) := by
  have hblocks : ∀ digits,
      n * pow10 (k + digits) / divisor =
          quotient * pow10 digits + remainder * pow10 digits / divisor ∧
        n * pow10 (k + digits) % divisor = remainder * pow10 digits % divisor := by
    intro digits
    rw [pow10_add, ← Nat.mul_assoc, hquotient, hremainder]
    exact div_mod_mul_pow10 _ hdivisor digits
  -- the cases of the division: nothing over, no room, one more block, a block that goes too far
  fun_induction stop divisor quotient remainder left generalizing k with
  | case1 quotient left =>
    exact ⟨⟨0, rfl, .inl hremainder.symm⟩, fun _ => rfl⟩
  | case2 quotient remainder left block hleft =>
    rename_i hblock
    refine ⟨⟨0, rfl, ?_⟩, fun _ => rfl⟩
    rcases Nat.eq_zero_or_pos left with hnone | hsome
    · exact .inr (.inl hnone)
    · have hlimit : min blockDigits left ≠ 0 := by
        have hdigits : blockDigits = 9 := rfl
        omega
      have hfull : mantissaBound ≤ quotient * 10 := le_mul_ten_of_room_eq_zero hlimit hblock
      have hnext : quotient * 10 ≤ n * pow10 (k + 0 + 1) / divisor := by
        rw [(hblocks 1).1]
        exact Nat.le_add_right _ _
      exact .inr (.inr (hfull.trans hnext))
  | case3 quotient remainder left block hleft hblock rest next hfits =>
    rename_i ih
    have hle : block ≤ min blockDigits left := room_le _ _
    obtain ⟨hnext, hrest⟩ := hblocks block
    have hlater : ∀ digits,
        n * pow10 (k + block + digits) / divisor =
            next * pow10 digits + rest % divisor * pow10 digits / divisor ∧
          n * pow10 (k + block + digits) % divisor = rest % divisor * pow10 digits % divisor := by
      intro digits
      rw [pow10_add, ← Nat.mul_assoc, ← hrest, ← show _ = next from hnext]
      exact div_mod_mul_pow10 _ hdivisor digits
    obtain ⟨⟨taken, htaken, hstop⟩, hmode⟩ := ih hnext.symm hrest.symm hlater
    rw [Nat.add_assoc k] at hstop
    exact ⟨⟨block + taken, by omega, hstop⟩, hmode⟩
  | case4 quotient remainder left block hleft hblock rest next =>
    rename_i hover
    have hle : block ≤ min blockDigits left := room_le _ _
    obtain ⟨hnext, -⟩ := hblocks block
    refine ⟨⟨block, by simp only; omega, .inr (.inr ?_)⟩, fun hword => ?_⟩
    · have hgrow : n * pow10 (k + block) ≤ n * pow10 (k + block + 1) :=
        Nat.mul_le_mul_left _ (pow10_le_pow10 (Nat.le_succ _))
      calc mantissaBound ≤ next := Nat.not_lt.1 hover
        _ = n * pow10 (k + block) / divisor := hnext.symm
        _ ≤ n * pow10 (k + block + 1) / divisor := Nat.div_le_div_right hgrow
    · exact if_neg fun h => Nat.not_lt.2 h.1 hword

/-- A half goes to the even neighbour or away from zero. -/
theorem isNearest_stop (divisor quotient remainder left : Nat) :
    (stop divisor quotient remainder left).2.IsNearest := by
  fun_induction stop divisor quotient remainder left with
  | case1 | case2 => exact .inl rfl
  | case3 quotient remainder left block hleft hblock rest next hfits ih => exact ih
  | case4 quotient remainder left block hleft hblock rest next hover =>
    unfold overshootMode
    split
    · exact .inr rfl
    · exact .inl rfl

/-- The quotient as one fraction. -/
theorem toRat_div (a b : Decimal) :
    a.toRat / b.toRat = a.mantissa * 10 ^ b.scale / (b.mantissa * 10 ^ a.scale) := by
  rw [toRat, toRat, div_div_div_eq, mul_comm (b.mantissa : ℚ)]

/-- The same with a positive denominator. -/
theorem toRat_div_natAbs (a : Decimal) (hb : b.mantissa ≠ 0) :
    ((a.mantissa * pow10 b.scale * b.mantissa.sign : Int) : ℚ) /
      ((b.mantissa.natAbs * pow10 a.scale : Nat) : ℚ) = a.toRat / b.toRat := by
  have habs : (b.mantissa.natAbs : ℚ) = |(b.mantissa : ℚ)| := by
    rw [← Int.cast_abs, Int.abs_eq_natAbs, Int.cast_natCast]
  rw [toRat_div]
  push_cast
  rw [cast_pow10, cast_pow10, habs]
  rcases lt_or_gt_of_ne hb with hneg | hpos
  · have hneg' : (b.mantissa : ℚ) < 0 := by exact_mod_cast hneg
    rw [Int.sign_eq_neg_one_of_neg hneg, abs_of_neg hneg', Int.cast_neg, Int.cast_one, mul_neg_one,
      neg_mul, neg_div_neg_eq]
  · have hpos' : (0 : ℚ) < b.mantissa := by exact_mod_cast hpos
    rw [Int.sign_eq_one_of_pos hpos, abs_of_pos hpos', Int.cast_one, mul_one]

/-- A quotient of mantissas that is an integer takes as many places as the operands leave it. -/
theorem map_toRat_div?_of_mul (mode : Rounding) {n : Int} (hb : b.mantissa ≠ 0)
    (hn : a.mantissa = n * b.mantissa) :
    (ofScaled? (n * pow10 (b.scale - a.scale)) (a.scale - b.scale)).map toRat =
      (nearest? mode (a.toRat / b.toRat) maxScale).map toRat := by
  have hb' : (b.mantissa : ℚ) ≠ 0 := by exact_mod_cast hb
  have hquotient : a.toRat / b.toRat * 10 ^ (a.scale - b.scale) =
      ((n * pow10 (b.scale - a.scale) : Int) : ℚ) := by
    have hscales : (10 : ℚ) ^ b.scale * 10 ^ (a.scale - b.scale) =
        10 ^ (b.scale - a.scale) * 10 ^ a.scale := by
      rw [← pow_add, ← pow_add]
      congr 1
      omega
    have ha' := (ten_pow_pos a.scale).ne'
    rw [toRat_div, hn, div_mul_eq_mul_div, div_eq_iff (mul_ne_zero hb' ha'), mul_assoc, hscales]
    push_cast
    rw [cast_pow10]
    ring
  by_cases hfits : (n * pow10 (b.scale - a.scale)).natAbs < mantissaBound
  · have hplaces : a.scale - b.scale ≤ maxScale := (Nat.sub_le _ _).trans a.scale_le
    rw [ofScaled?_of_fits hplaces hfits, Option.map_some]
    have hvalue : (ofScaled _ _ hfits hplaces).toRat = a.toRat / b.toRat :=
      toRat_eq_iff.2 hquotient.symm
    rw [← hvalue, map_toRat_nearest?_toRat]
  · -- only a divisor with more places makes the quotient too large, and then it is an integer
    have hscale : a.scale - b.scale = 0 := by
      by_contra hmore
      have hsame : b.scale - a.scale = 0 := by omega
      have hgrow : n.natAbs ≤ a.mantissa.natAbs := by
        rw [hn, Int.natAbs_mul]
        exact Nat.le_mul_of_pos_right _ (Int.natAbs_pos.2 hb)
      have hlt := a.mantissa_lt
      rw [hsame, pow10_zero, Nat.cast_one, Int.mul_one] at hfits
      omega
    have hlarge : (mantissaBound : ℚ) ≤ |a.toRat / b.toRat| := by
      rw [hscale, pow_zero, mul_one] at hquotient
      rw [hquotient, ← Int.cast_abs, Int.abs_eq_natAbs]
      exact_mod_cast Nat.not_lt.1 hfits
    rw [ofScaled?_of_overflow (Nat.not_lt.1 hfits), nearest?_eq_none hlarge]

/-- Where a long division has stopped, more places make no difference to the quotient. -/
theorem hasPlaces_or_overflows_of_stop {mode : Rounding} {left taken : Nat} (hb : b.mantissa ≠ 0)
    (hleft : left + taken = maxScale + b.scale - a.scale)
    (hstop : a.mantissa.natAbs * pow10 taken % b.mantissa.natAbs = 0 ∨ left = 0 ∨
      mantissaBound ≤ a.mantissa.natAbs * pow10 (taken + 1) / b.mantissa.natAbs) :
    HasPlaces (maxScale - left) (a.toRat / b.toRat) ∨
      ∀ s, maxScale - left < s → s ≤ maxScale → Overflows mode (a.toRat / b.toRat) s := by
  have hbPos : 0 < b.mantissa.natAbs := Int.natAbs_pos.2 hb
  have hbCast : (0 : ℚ) < b.mantissa.natAbs := by exact_mod_cast hbPos
  have haScale := a.scale_le
  -- the exact quotient on a grid, by the digits that the division has taken
  have hgrid : ∀ s digits extra, b.scale + s = digits + a.scale + extra →
      |a.toRat / b.toRat| * 10 ^ s =
        ((a.mantissa.natAbs * pow10 digits : Nat) : ℚ) / b.mantissa.natAbs * 10 ^ extra := by
    intro s digits extra hsum
    have hpow : (10 : ℚ) ^ b.scale * 10 ^ s = 10 ^ digits * 10 ^ a.scale * 10 ^ extra := by
      rw [← pow_add, ← pow_add, ← pow_add, hsum]
    have ha' := ten_pow_pos a.scale
    rw [toRat_div, abs_div, abs_mul, abs_mul, abs_of_pos (ten_pow_pos b.scale), abs_of_pos ha',
      ← Int.cast_abs, ← Int.cast_abs, Int.abs_eq_natAbs, Int.abs_eq_natAbs, Int.cast_natCast,
      Int.cast_natCast, Nat.cast_mul, cast_pow10]
    rw [div_mul_eq_mul_div, div_mul_eq_mul_div, mul_assoc, hpow,
      div_eq_div_iff (mul_pos hbCast ha').ne' hbCast.ne']
    ring
  rcases hstop with hexact | hnone | hfull
  · refine .inl (HasPlaces.of_abs ?_)
    obtain ⟨n, hn⟩ := Nat.dvd_of_mod_eq_zero hexact
    refine ⟨n * pow10 (left - maxScale), ?_⟩
    rw [hgrid (maxScale - left) taken (left - maxScale) (by omega), hn, Nat.cast_mul,
      mul_div_cancel_left₀ _ hbCast.ne']
    push_cast
    rw [cast_pow10]
  · exact .inr fun s hlow hhigh => by omega
  · refine .inr fun s hlow hhigh => overflows_of_le ?_
    rw [abs_mul_pow, hgrid s (taken + 1) (b.scale + s - (taken + 1) - a.scale) (by omega)]
    have hle : (mantissaBound : ℚ) ≤
        ((a.mantissa.natAbs * pow10 (taken + 1) : Nat) : ℚ) / b.mantissa.natAbs := by
      rw [le_div_iff₀ hbCast]
      exact_mod_cast (Nat.le_div_iff_mul_le hbPos).1 hfull
    exact hle.trans (le_mul_of_one_le_right ((Nat.cast_nonneg _).trans hle)
      (one_le_pow₀ (by norm_num)))

/-- A quotient is what the rule makes of the exact quotient, rounding to the nearest. -/
theorem exists_isNearest_div? (a : Decimal) {b : Decimal} (hb : b.toRat ≠ 0) :
    ∃ mode, mode.IsNearest ∧ (b.mantissa.natAbs < wordBound → mode = .halfEven) ∧
      (a.div? b).map toRat = (nearest? mode (a.toRat / b.toRat) maxScale).map toRat := by
  have hbZero : b.isZero = false := by
    rw [← Bool.not_eq_true, isZero_iff_toRat]
    exact hb
  have hbMantissa : b.mantissa ≠ 0 := by
    rwa [isZero, beq_eq_false_iff_ne] at hbZero
  have hbPos : 0 < b.mantissa.natAbs := Int.natAbs_pos.2 hbMantissa
  unfold div?
  simp only [hbZero, Bool.false_eq_true, if_false]
  split
  · rename_i hzero
    have hquotient : a.toRat / b.toRat = zero.toRat := by
      rw [isZero_iff_toRat.1 hzero, zero_div, toRat_zero]
    exact ⟨.halfEven, .inl rfl, fun _ => rfl, by rw [hquotient, map_toRat_nearest?_toRat, Option.map_some]⟩
  split
  · rename_i hdvd
    have hn : a.mantissa = a.mantissa / b.mantissa * b.mantissa :=
      (Int.ediv_mul_cancel (Int.dvd_of_emod_eq_zero hdvd)).symm
    exact ⟨.halfEven, .inl rfl, fun _ => rfl, map_toRat_div?_of_mul .halfEven hbMantissa hn⟩
  · obtain ⟨⟨taken, htaken, hstop⟩, hmode⟩ :=
      stop_spec (n := a.mantissa.natAbs) (k := 0) (maxScale + b.scale - a.scale) hbPos
        (by rw [pow10_zero, Nat.mul_one]) (by rw [pow10_zero, Nat.mul_one])
    have hnearest := isNearest_stop b.mantissa.natAbs (a.mantissa.natAbs / b.mantissa.natAbs)
      (a.mantissa.natAbs % b.mantissa.natAbs) (maxScale + b.scale - a.scale)
    generalize stop _ _ _ _ = stopped at htaken hstop hmode hnearest ⊢
    obtain ⟨left, mode⟩ := stopped
    rw [Nat.zero_add] at hstop
    refine ⟨mode, hnearest, hmode, ?_⟩
    have hshorten : ∀ d : Decimal, d.shorten.toRat = d.toRat :=
      fun d => sameNumber_iff_toRat.1 d.sameNumber_shorten
    rw [Option.map_map, fit?_eq_nearest? _ _ (Nat.mul_pos hbPos (pow10_pos _)),
      toRat_div_natAbs a hbMantissa, ← map_toRat_nearest?_of_limit (Nat.sub_le _ _)
        (hasPlaces_or_overflows_of_stop hbMantissa htaken hstop)]
    exact congrFun (congrArg Option.map (funext hshorten)) _

/-- A quotient is what the rule makes of the exact quotient. -/
theorem map_toRat_div? (a : Decimal) {b : Decimal} (hb : b.toRat ≠ 0) :
    ∃ mode, (b.mantissa.natAbs < wordBound → mode = .halfEven) ∧
      (a.div? b).map toRat = (nearest? mode (a.toRat / b.toRat) maxScale).map toRat := by
  obtain ⟨mode, -, hdiv⟩ := exists_isNearest_div? a hb
  exact ⟨mode, hdiv⟩

theorem abs_toRat_le (d : Decimal) : |d.toRat| ≤ d.mantissa.natAbs := by
  rw [toRat, abs_div, abs_of_pos (ten_pow_pos d.scale), Nat.cast_natAbs, Int.cast_abs]
  exact div_le_self (abs_nonneg _) (one_le_pow₀ (by norm_num))

theorem exists_nearest?_of_mul? (h : a.mul? b = some d) :
    ∃ e, nearest? .halfEven (a.toRat * b.toRat) maxScale = some e ∧ e.toRat = d.toRat := by
  have hmul := map_toRat_mul? a b
  rw [h, Option.map_some] at hmul
  exact Option.map_eq_some_iff.1 hmul.symm

theorem exists_nearest?_of_div? (hb : b.toRat ≠ 0) (h : a.div? b = some d) :
    ∃ mode, mode.IsNearest ∧ (b.mantissa.natAbs < wordBound → mode = .halfEven) ∧
      ∃ e, nearest? mode (a.toRat / b.toRat) maxScale = some e ∧ e.toRat = d.toRat := by
  obtain ⟨mode, hmode, hword, hdiv⟩ := exists_isNearest_div? a hb
  rw [h, Option.map_some] at hdiv
  exact ⟨mode, hmode, hword, Option.map_eq_some_iff.1 hdiv.symm⟩

theorem isZero_of_one_le (h : 1 ≤ |d.toRat|) : d.isZero = false := by
  rw [← Bool.not_eq_true, isZero_iff_toRat]
  intro hzero
  rw [hzero, abs_zero] at h
  exact absurd h (by norm_num)

/-- A quotient by a number that is at least one is in range. -/
theorem exists_div? (a : Decimal) {b : Decimal} (hb : 1 ≤ |b.toRat|) : ∃ q, a.div? b = some q := by
  have hne : b.toRat ≠ 0 := by
    intro hzero
    rw [hzero, abs_zero] at hb
    exact absurd hb (by norm_num)
  obtain ⟨mode, -, hdiv⟩ := map_toRat_div? a hne
  have hle : |a.toRat / b.toRat| ≤ a.mantissa.natAbs := by
    rw [abs_div]
    exact (div_le_self (abs_nonneg _) hb).trans a.abs_toRat_le
  obtain ⟨d, hd⟩ := exists_nearest? mode a.mantissa_lt hle le_rfl
  rw [hd, Option.map_some] at hdiv
  obtain ⟨q, hq, -⟩ := Option.map_eq_some_iff.1 hdiv
  exact ⟨q, hq⟩

end Decimal

end LineCalc
