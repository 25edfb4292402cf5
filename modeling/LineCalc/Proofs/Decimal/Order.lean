import LineCalc.Proofs.Decimal.RoundingError

/-!
# The order of products and quotients

Rounding to the nearest keeps numbers in order, also where the larger one gets fewer places, and it
treats a number and its opposite alike. So do products and quotients, up to one case: a long
division takes a half to either of its neighbours, and which one it is may depend on how the
dividend is written.

* **`Rounding.toInt_neg`**: the nearest integer to the opposite number.
* **`Decimal.neg_mul?`**, **`Decimal.neg_div?`**: the opposite of a product and of a quotient.
* **`Decimal.toRat_le_of_lt`**: numbers in order come into range in order.
* **`Decimal.mul?_le`**: products of numbers in order are in order.
* **`Decimal.div?_le_or_halfway`**: quotients are too, unless a half is taken to both of its sides.
-/

namespace LineCalc

/-! ## Rounding to the nearest -/

namespace Rounding

variable {mode mode' : Rounding} {x y : ℚ}

theorem divide_neg (hmode : mode.IsNearest) (num : Int) {den : Nat} (hden : 0 < den) :
    mode.divide (-num) den = -mode.divide num den := by
  obtain ⟨hnonneg, hlt, hquotient, -⟩ := quotient_bounds num hden
  have hden' : (0 : Int) < den := by omega
  by_cases hrest : num % (den : Int) = 0
  · have hdvd : (den : Int) ∣ num := Int.dvd_of_emod_eq_zero hrest
    have hneg : -num / (den : Int) = -(num / den) := Int.neg_ediv_of_dvd hdvd
    have hnone : -num % (den : Int) = 0 := Int.emod_eq_zero_of_dvd (Int.dvd_neg.2 hdvd)
    rcases hmode with rfl | rfl <;> simp only [divide, hneg, hnone, hrest] <;>
      (repeat' split) <;> omega
  · -- on the other side of zero, the floor is the next integer
    have hne : num ≠ 0 := fun hzero => hrest (by rw [hzero, Int.zero_emod])
    have hsplit : (den - num % den) + den * (-(num / den) - 1) = -num := by
      rw [Int.mul_sub, Int.mul_neg, Int.mul_comm]
      omega
    obtain ⟨hneg, hover⟩ :=
      (Int.ediv_emod_unique hden').2 ⟨hsplit, Int.sub_nonneg.2 hlt.le, by omega⟩
    rcases hmode with rfl | rfl <;> simp only [divide, hneg, hover] <;>
      (repeat' split) <;> omega

/-- The nearest integer to the opposite number. -/
theorem toInt_neg (hmode : mode.IsNearest) (x : ℚ) : mode.toInt (-x) = -mode.toInt x := by
  rw [toInt, Rat.num_neg_eq_neg_num, Rat.den_neg_eq_den, divide_neg hmode _ x.den_pos, toInt]

/-- Numbers in order go to integers in order, whatever is done with a half. -/
theorem toInt_le_toInt (hmode : mode.IsNearest) (hmode' : mode'.IsNearest) (h : x < y) :
    mode.toInt x ≤ mode'.toInt y := by
  obtain ⟨-, hx⟩ := abs_le.1 (abs_toInt_nearest_sub_le hmode x)
  obtain ⟨hy, -⟩ := abs_le.1 (abs_toInt_nearest_sub_le hmode' y)
  have hless : (mode.toInt x : ℚ) < mode'.toInt y + 1 := by linarith
  exact Int.lt_add_one_iff.1 (by exact_mod_cast hless)

/-- Where two modes part, the number is a half, and they take it to its two neighbours. -/
theorem half_of_toInt_lt (hmode : mode.IsNearest) (hmode' : mode'.IsNearest)
    (h : mode'.toInt x < mode.toInt x) :
    mode.toInt x = mode'.toInt x + 1 ∧ x = mode'.toInt x + 1 / 2 := by
  obtain ⟨-, hhigh⟩ := abs_le.1 (abs_toInt_nearest_sub_le hmode x)
  obtain ⟨hlow, -⟩ := abs_le.1 (abs_toInt_nearest_sub_le hmode' x)
  have hstep : (mode'.toInt x : ℚ) + 1 ≤ mode.toInt x := by exact_mod_cast h
  have hnext : (mode.toInt x : ℚ) = mode'.toInt x + 1 := by linarith
  exact ⟨by exact_mod_cast hnext, by linarith⟩

/-- The half below 2^96 goes up, because 2^96 is even. -/
theorem toInt_mantissaBound (hmode : mode.IsNearest) :
    mode.toInt (mantissaBound - 1 / 2) = mantissaBound := by
  have hhalf : ((mantissaBound : ℚ) - 1 / 2) =
      ((2 * mantissaBound - 1 : Int) : ℚ) / ((2 : Nat) : ℚ) := by
    push_cast
    ring
  rw [hhalf, ← divide_eq_toInt _ _ Nat.two_pos]
  rcases hmode with rfl | rfl <;> decide +kernel

end Rounding

namespace Decimal

variable {mode mode' : Rounding} {x y : ℚ} {a b d e : Decimal} {limit places : Nat}

/-! ## Opposite numbers -/

theorem ofScaled?_neg (m : Int) (places : Nat) :
    ofScaled? (-m) places = (ofScaled? m places).map neg := by
  unfold ofScaled?
  simp only [Int.natAbs_neg]
  split <;> rfl

theorem fit?_neg (hmode : mode.IsNearest) (num : Int) {den : Nat} (hden : 0 < den) (limit : Nat) :
    fit? mode (-num) den limit = (fit? mode num den limit).map neg := by
  induction limit with
  | zero => rw [fit?, fit?, Rounding.divide_neg hmode _ hden, ofScaled?_neg]
  | succ limit ih =>
    rw [fit?, fit?, Int.neg_mul, Rounding.divide_neg hmode _ hden, ofScaled?_neg, ih]
    cases ofScaled? (mode.divide (num * pow10 (limit + 1)) den) (limit + 1) <;> rfl

theorem nearest?_neg (hmode : mode.IsNearest) (x : ℚ) (limit : Nat) :
    nearest? mode (-x) limit = (nearest? mode x limit).map neg := by
  rw [nearest?, Rat.num_neg_eq_neg_num, Rat.den_neg_eq_den, fit?_neg hmode _ x.den_pos, nearest?]

@[simp] theorem mantissa_neg (d : Decimal) : d.neg.mantissa = -d.mantissa := rfl

@[simp] theorem scale_neg (d : Decimal) : d.neg.scale = d.scale := rfl

theorem isZero_neg (d : Decimal) : d.neg.isZero = d.isZero := by
  simp [isZero]

/-- The opposite of a product. -/
theorem neg_mul? (a b : Decimal) : a.neg.mul? b = (a.mul? b).map neg := by
  unfold mul?
  rw [isZero_neg]
  split
  · rfl
  · rw [mantissa_neg, scale_neg, Int.neg_mul, fit?_neg (.inl rfl) _ (pow10_pos _)]

theorem neg_emod_eq_zero_iff {m n : Int} : -m % n = 0 ↔ m % n = 0 := by
  rw [← Int.dvd_iff_emod_eq_zero, ← Int.dvd_iff_emod_eq_zero, Int.dvd_neg]

theorem dropBlock_neg (d : Decimal) (count : Nat) :
    d.neg.dropBlock count = (d.dropBlock count).neg := by
  unfold dropBlock
  simp only [mantissa_neg, scale_neg, neg_emod_eq_zero_iff]
  split
  · rename_i h
    exact ext_parts (Int.neg_ediv_of_dvd (Int.dvd_of_emod_eq_zero h.2)) rfl
  · rfl

theorem dropEights_neg (times : Nat) (d : Decimal) :
    dropEights times d.neg = (dropEights times d).neg := by
  induction times generalizing d with
  | zero => rfl
  | succ times ih =>
    simp only [dropEights, mantissa_neg, neg_emod_eq_zero_iff, dropBlock_neg, ih]
    split <;> rfl

theorem shorten_neg (d : Decimal) : d.neg.shorten = d.shorten.neg := by
  simp only [shorten, dropEights_neg, dropBlock_neg]

/-- The opposite of a quotient. -/
theorem neg_div? (a b : Decimal) : a.neg.div? b = (a.div? b).map neg := by
  unfold div?
  simp only [isZero_neg, mantissa_neg, scale_neg, neg_emod_eq_zero_iff, Int.natAbs_neg]
  split
  · rfl
  split
  · rfl
  split
  · rename_i hexact
    rw [Int.neg_ediv_of_dvd (Int.dvd_of_emod_eq_zero hexact), Int.neg_mul, ofScaled?_neg]
  · rename_i hzero _ _
    have hpos : 0 < b.mantissa.natAbs :=
      Int.natAbs_pos.2 fun hmantissa => hzero (beq_iff_eq.2 hmantissa)
    have hmode := isNearest_stop b.mantissa.natAbs (a.mantissa.natAbs / b.mantissa.natAbs)
      (a.mantissa.natAbs % b.mantissa.natAbs) (maxScale + b.scale - a.scale)
    rw [Int.neg_mul, Int.neg_mul, fit?_neg hmode _ (Nat.mul_pos hpos (pow10_pos _)), Option.map_map,
      Option.map_map]
    exact congrFun (congrArg Option.map (funext shorten_neg)) _

/-! ## Into range in order -/

theorem mantissa_of_nearest? (hlimit : limit ≤ maxScale) (h : nearest? mode x limit = some d) :
    d.mantissa = mode.toInt (x * 10 ^ d.scale) := by
  have hvalue := (of_nearest?_eq_some hlimit h).1
  rw [toRat_eq_iff, div_mul_cancel₀ _ (ten_pow_pos d.scale).ne'] at hvalue
  exact_mod_cast hvalue

theorem overflows_neg (hmode : mode.IsNearest) :
    Overflows mode (-x) places ↔ Overflows mode x places := by
  rw [Overflows, neg_mul, Rounding.toInt_neg hmode, Int.natAbs_neg, Overflows]

/-- Whether a number is too large does not depend on what is done with a half. -/
theorem Overflows.congr (hmode : mode.IsNearest) (hmode' : mode'.IsNearest)
    (h : Overflows mode x places) : Overflows mode' x places := by
  wlog hx : 0 ≤ x generalizing x with hpositive
  · rw [← overflows_neg hmode']
    exact hpositive ((overflows_neg hmode).2 h) (by linarith)
  have hnonneg : 0 ≤ mode.toInt (x * 10 ^ places) :=
    mode.le_toInt (by exact_mod_cast mul_nonneg hx (ten_pow_pos places).le)
  have hnonneg' : 0 ≤ mode'.toInt (x * 10 ^ places) :=
    mode'.le_toInt (by exact_mod_cast mul_nonneg hx (ten_pow_pos places).le)
  by_contra hfits
  rw [Overflows] at h hfits
  -- only the half below 2^96 could be on both sides of the bound
  have hless : mode'.toInt (x * 10 ^ places) < mode.toInt (x * 10 ^ places) := by omega
  obtain ⟨hnext, hhalf⟩ := Rounding.half_of_toInt_lt hmode hmode' hless
  have hbound : mode'.toInt (x * 10 ^ places) + 1 = mantissaBound := by omega
  have htop : x * 10 ^ places = mantissaBound - 1 / 2 := by
    have hcast : (mode'.toInt (x * 10 ^ places) : ℚ) + 1 = mantissaBound := by exact_mod_cast hbound
    linarith
  rw [htop, Rounding.toInt_mantissaBound hmode'] at hbound
  omega

/-- A number that is too large with one place more fills the 96 bits with those that it has. -/
theorem le_of_overflows_succ (hmode : mode.IsNearest) (hx : 0 ≤ x)
    (h : Overflows mode x (places + 1)) :
    (mantissaBound : Int) ≤ mode.toInt (x * 10 ^ places) * 10 := by
  set more := mode.toInt (x * 10 ^ (places + 1)) with hdigits
  have hnonneg : 0 ≤ more := mode.le_toInt (by exact_mod_cast mul_nonneg hx (ten_pow_pos _).le)
  obtain ⟨-, hhigh⟩ := abs_le.1 (Rounding.abs_toInt_nearest_sub_le hmode (x * 10 ^ (places + 1)))
  obtain ⟨hlow, -⟩ := abs_le.1 (Rounding.abs_toInt_nearest_sub_le hmode (x * 10 ^ places))
  rw [← hdigits, pow_succ, ← mul_assoc] at hhigh
  have hnear : 2 * (more : ℚ) ≤ 2 * (mode.toInt (x * 10 ^ places) * 10) + 11 := by linarith
  have hnear' : 2 * more ≤ 2 * (mode.toInt (x * 10 ^ places) * 10) + 11 := by exact_mod_cast hnear
  have hbits : mantissaBound ≤ more.natAbs := h
  have hbound : (mantissaBound : Int) = 79228162514264337593543950336 := rfl
  omega

/-- What does not come into range is what is too large as an integer. -/
theorem nearest?_eq_none_iff (hmode : mode.IsNearest) :
    nearest? mode x maxScale = none ↔ Overflows mode x 0 := by
  constructor
  · intro hnone
    by_contra hfits
    obtain ⟨d, hd⟩ := exists_nearest?_of_fits (le_refl maxScale) hfits
    rw [hnone] at hd
    cases hd
  · intro h
    have hlarge : (mantissaBound : ℚ) - 1 / 2 ≤ |x| := by
      have hbits : (mantissaBound : ℚ) ≤ |(mode.toInt x : ℚ)| := by
        rw [Overflows, pow_zero, mul_one] at h
        rw [← Int.cast_abs, Int.abs_eq_natAbs, Int.cast_natCast]
        exact Nat.cast_le.2 h
      have hnear := (abs_sub_abs_le_abs_sub _ _).trans (Rounding.abs_toInt_nearest_sub_le hmode x)
      linarith
    refine nearest?_of_overflows fun s => ?_
    cases s with
    | zero => exact h
    | succ s =>
      apply overflows_of_le
      have hpow : (10 : ℚ) ≤ 10 ^ (s + 1) := le_self_pow₀ (by norm_num) (Nat.succ_ne_zero s)
      have hbound : (1 : ℚ) ≤ mantissaBound := by norm_num [mantissaBound]
      calc (mantissaBound : ℚ) ≤ |x| * 10 := by linarith
        _ ≤ |x| * 10 ^ (s + 1) := mul_le_mul_of_nonneg_left hpow (abs_nonneg x)
        _ = |x * 10 ^ (s + 1)| := (abs_mul_pow x (s + 1)).symm

/-- Numbers that are not negative come into range in order. -/
theorem toRat_le_of_nonneg (hmode : mode.IsNearest) (hmode' : mode'.IsNearest) (hx : 0 ≤ x)
    (h : x < y) (ha : nearest? mode x maxScale = some a) (hb : nearest? mode' y maxScale = some b) :
    a.toRat ≤ b.toRat := by
  have hmantissa := mantissa_of_nearest? le_rfl ha
  have hmantissa' := mantissa_of_nearest? le_rfl hb
  have hscaled : ∀ s, x * 10 ^ s < y * 10 ^ s := fun s => mul_lt_mul_of_pos_right h (ten_pow_pos s)
  have hnonneg : ∀ s, 0 ≤ mode.toInt (x * 10 ^ s) :=
    fun s => mode.le_toInt (by exact_mod_cast mul_nonneg hx (ten_pow_pos s).le)
  have hfits := a.mantissa_lt
  have hfits' := b.mantissa_lt
  rcases lt_trichotomy a.scale b.scale with hless | hsame | hmore
  · -- the smaller number would be too large with as many places as the larger one has
    have hover : Overflows mode x b.scale := (of_nearest?_eq_some le_rfl ha).2 _ hless b.scale_le
    have hle := Rounding.toInt_le_toInt hmode hmode' (hscaled b.scale)
    have hzero := hnonneg b.scale
    rw [Overflows] at hover
    omega
  · have hle := Rounding.toInt_le_toInt hmode hmode' (hscaled b.scale)
    rw [toRat, toRat, hmantissa, hmantissa', hsame]
    exact div_le_div_of_nonneg_right (by exact_mod_cast hle) (ten_pow_pos b.scale).le
  · -- the larger number is too large with one place more, so that its digits fill the 96 bits
    have hover : Overflows mode' y (b.scale + 1) :=
      (of_nearest?_eq_some le_rfl hb).2 _ (Nat.lt_succ_self _) (Nat.le_trans hmore a.scale_le)
    have hfull : (mantissaBound : Int) ≤ b.mantissa * 10 :=
      hmantissa' ▸ le_of_overflows_succ hmode' (hx.trans h.le) hover
    have hpow := ten_pow_pos (b.scale + 1)
    calc a.toRat ≤ mantissaBound / 10 ^ a.scale :=
          div_le_div_of_nonneg_right (by exact_mod_cast (by omega : a.mantissa ≤ mantissaBound))
            (ten_pow_pos a.scale).le
      _ ≤ mantissaBound / 10 ^ (b.scale + 1) :=
          div_le_div_of_nonneg_left (Nat.cast_nonneg _) hpow (pow_le_pow_right₀ (by norm_num) hmore)
      _ ≤ (b.mantissa * 10) / 10 ^ (b.scale + 1) :=
          div_le_div_of_nonneg_right (by exact_mod_cast hfull) hpow.le
      _ = b.toRat := by rw [pow_succ, mul_div_mul_right _ _ (by norm_num), toRat]

/-- Numbers in order come into range in order, whatever is done with a half. -/
theorem toRat_le_of_lt (hmode : mode.IsNearest) (hmode' : mode'.IsNearest) (h : x < y)
    (ha : nearest? mode x maxScale = some a) (hb : nearest? mode' y maxScale = some b) :
    a.toRat ≤ b.toRat := by
  have hzero : ∀ s, HasPlaces s 0 := fun s => ⟨0, by rw [zero_mul, Int.cast_zero]⟩
  rcases le_or_gt 0 x with hx | hx
  · exact toRat_le_of_nonneg hmode hmode' hx h ha hb
  rcases le_or_gt y 0 with hy | hy
  · have ha' : nearest? mode (-x) maxScale = some a.neg := by rw [nearest?_neg hmode, ha]; rfl
    have hb' : nearest? mode' (-y) maxScale = some b.neg := by rw [nearest?_neg hmode', hb]; rfl
    have hle := toRat_le_of_nonneg hmode' hmode (neg_nonneg.2 hy) (neg_lt_neg h) hb' ha'
    rwa [toRat_neg, toRat_neg, neg_le_neg_iff] at hle
  · exact (toRat_le_of_nearest? le_rfl ha (hzero _) hx.le).trans
      (le_toRat_of_nearest? le_rfl hb (hzero _) hy.le)

/-- A number halfway between two neighbours on the grid of some number of places. -/
def Halfway (low : Decimal) (x : ℚ) (high : Decimal) : Prop :=
  ∃ places ≤ maxScale, ∃ n : Int, low.toRat * 10 ^ places = n ∧ x * 10 ^ places = n + 1 / 2 ∧
    high.toRat * 10 ^ places = n + 1

/-- Two modes give one number, or they take a half to its two neighbours. -/
theorem toRat_le_or_halfway (hmode : mode.IsNearest) (hmode' : mode'.IsNearest)
    (ha : nearest? mode x maxScale = some a) (hb : nearest? mode' x maxScale = some b) :
    a.toRat ≤ b.toRat ∨ Halfway b x a := by
  have hmantissa := mantissa_of_nearest? le_rfl ha
  have hmantissa' := mantissa_of_nearest? le_rfl hb
  have hfits : ¬ Overflows mode x a.scale := by
    rw [Overflows, ← hmantissa]
    exact Nat.not_le.2 a.mantissa_lt
  have hfits' : ¬ Overflows mode' x b.scale := by
    rw [Overflows, ← hmantissa']
    exact Nat.not_le.2 b.mantissa_lt
  have hscale : a.scale = b.scale := by
    rcases lt_trichotomy a.scale b.scale with hless | hsame | hmore
    · have hover := (of_nearest?_eq_some le_rfl ha).2 _ hless b.scale_le
      exact absurd (hover.congr hmode hmode') hfits'
    · exact hsame
    · have hover := (of_nearest?_eq_some le_rfl hb).2 _ hmore a.scale_le
      exact absurd (hover.congr hmode' hmode) hfits
  rcases le_or_gt a.mantissa b.mantissa with hle | hgt
  · left
    rw [toRat, toRat, hscale]
    exact div_le_div_of_nonneg_right (by exact_mod_cast hle) (ten_pow_pos b.scale).le
  · right
    have hscaled := a.toRat_mul_pow
    rw [hmantissa, hmantissa', hscale] at hgt
    rw [hmantissa, hscale] at hscaled
    obtain ⟨hnext, hhalf⟩ := Rounding.half_of_toInt_lt hmode hmode' hgt
    refine ⟨b.scale, b.scale_le, mode'.toInt (x * 10 ^ b.scale), ?_, hhalf, ?_⟩
    · rw [toRat_mul_pow, hmantissa']
    · rw [hscaled, hnext]
      push_cast
      rfl

/-! ## Products and quotients -/

/-- Products of numbers in order by one factor are in order. -/
theorem mul?_le {factor : Decimal} (hfactor : 0 < factor.toRat) (h : a.toRat ≤ b.toRat)
    (hd : a.mul? factor = some d) (he : b.mul? factor = some e) : d.toRat ≤ e.toRat := by
  obtain ⟨d', hd', hdValue⟩ := exists_nearest?_of_mul? hd
  obtain ⟨e', he', heValue⟩ := exists_nearest?_of_mul? he
  rw [← hdValue, ← heValue]
  rcases h.eq_or_lt with hsame | hless
  · rw [hsame, he'] at hd'
    rw [Option.some_inj.1 hd']
  · exact toRat_le_of_lt (.inl rfl) (.inl rfl) (mul_lt_mul_of_pos_right hless hfactor) hd' he'

/--
Quotients of numbers in order by one divisor are in order, unless the numbers are one, the divisor
has more than 64 bits, and the quotient is a half that is taken to both of its sides.
-/
theorem div?_le_or_halfway {divisor : Decimal} (hdivisor : 0 < divisor.toRat)
    (h : a.toRat ≤ b.toRat) (hd : a.div? divisor = some d) (he : b.div? divisor = some e) :
    d.toRat ≤ e.toRat ∨ (wordBound ≤ divisor.mantissa.natAbs ∧ a.toRat = b.toRat ∧
      Halfway e (a.toRat / divisor.toRat) d) := by
  obtain ⟨mode, hmode, hword, d', hd', hdValue⟩ := exists_nearest?_of_div? hdivisor.ne' hd
  obtain ⟨mode', hmode', hword', e', he', heValue⟩ := exists_nearest?_of_div? hdivisor.ne' he
  rcases h.eq_or_lt with hsame | hless
  · rw [← hsame] at he'
    rcases lt_or_ge divisor.mantissa.natAbs wordBound with hshort | hlong
    · rw [hword hshort] at hd'
      rw [hword' hshort, hd'] at he'
      exact .inl (by rw [← hdValue, ← heValue, Option.some_inj.1 he'])
    · rcases toRat_le_or_halfway hmode hmode' hd' he' with hle | hhalf
      · exact .inl (hdValue ▸ heValue ▸ hle)
      · rw [Halfway, hdValue, heValue] at hhalf
        exact .inr ⟨hlong, hsame, hhalf⟩
  · exact .inl (hdValue ▸ heValue ▸ toRat_le_of_lt hmode hmode'
      (div_lt_div_of_pos_right hless hdivisor) hd' he')

end Decimal

end LineCalc
