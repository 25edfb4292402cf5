import LineCalc.Proofs.Decimal.RoundingError
import LineCalc.Proofs.Vocabulary

/-!
# Into another unit and back

A conversion multiplies by the size of one unit and divides by the size of the other, and both steps
round. What an amount in the base unit of the family loses by it is small beside the amount and
beside the unit that it is converted into, so that an amount with four places is found again when it
is converted back.

* **`abs_amount_sub_le`**: what a conversion loses.
* **`abs_round_trip_sub_le`**: what a conversion and the one back lose.
* **`convertDecimal_round_trip`**: with four places, nothing is lost among the standard units.
-/

namespace LineCalc

variable {a b : MeasureUnit} {v w back : Decimal}

theorem convertDecimal_eq_ok (h : convertDecimal v a b = .ok w) :
    (a.multiplier.toRat = b.multiplier.toRat ∧ w = v) ∨
      ∃ product, v.mul? a.multiplier = some product ∧ product.div? b.multiplier = some w := by
  unfold convertDecimal at h
  split at h
  · split at h
    · rename_i hsame
      cases h
      exact .inl ⟨Decimal.sameNumber_iff_toRat.1 hsame, rfl⟩
    · split at h <;> cases h
      rename_i hconverted
      exact .inr (Option.bind_eq_some_iff.1 hconverted)
  · cases h

/-! ## The errors -/

/-- The error of a quotient, in units of what it is divided by. -/
theorem abs_mul_sub_le_of_div? {product size : Decimal} (hsize : 0 < size.toRat)
    (h : product.div? size = some w) :
    |w.toRat * size.toRat - product.toRat| ≤
      (size.toRat + 2 * |product.toRat|) / 10 ^ maxScale := by
  have hkept : w.toRat * size.toRat - product.toRat =
      (w.toRat - product.toRat / size.toRat) * size.toRat := by
    rw [sub_mul, div_mul_cancel₀ _ hsize.ne']
  calc |w.toRat * size.toRat - product.toRat|
      = |w.toRat - product.toRat / size.toRat| * size.toRat := by
        rw [hkept, abs_mul, abs_of_pos hsize]
    _ ≤ Decimal.errorBound (product.toRat / size.toRat) * size.toRat :=
        mul_le_mul_of_nonneg_right (Decimal.abs_sub_le_of_div? hsize.ne' h) hsize.le
    _ = (size.toRat + 2 * |product.toRat|) / 10 ^ maxScale := by
        rw [Decimal.errorBound, abs_div, abs_of_pos hsize]
        field_simp

/-- A conversion keeps the amount in the base unit, up to a part of it and of the unit's size. -/
theorem abs_amount_sub_le (hb : 1 ≤ b.multiplier.toRat) (h : convertDecimal v a b = .ok w) :
    |w.toRat * b.multiplier.toRat - v.toRat * a.multiplier.toRat| ≤
      6 * (b.multiplier.toRat + |v.toRat * a.multiplier.toRat|) / 10 ^ maxScale := by
  set size := b.multiplier.toRat
  set amount := v.toRat * a.multiplier.toRat with hamount
  have hpos : 0 < size := by linarith
  rcases convertDecimal_eq_ok h with ⟨hsame, rfl⟩ | ⟨product, hproduct, hquotient⟩
  · rw [hamount, hsame, sub_self, abs_zero]
    positivity
  · have hmul : |product.toRat - amount| ≤ (1 + 2 * |amount|) / 10 ^ maxScale :=
      Decimal.abs_sub_le_of_mul? hproduct
    have hdiv : |w.toRat * size - product.toRat| ≤ (size + 2 * |product.toRat|) / 10 ^ maxScale :=
      abs_mul_sub_le_of_div? hpos hquotient
    have hsmall : (1 + 2 * |amount|) / 10 ^ maxScale ≤ (1 + 2 * |amount|) / 2 :=
      div_le_div_of_nonneg_left (by positivity) (by norm_num) (by norm_num [maxScale])
    have hle : |product.toRat| ≤ 1 / 2 + 2 * |amount| := by
      have hgrow := abs_sub_abs_le_abs_sub product.toRat amount
      linarith
    calc |w.toRat * size - amount|
        ≤ |w.toRat * size - product.toRat| + |product.toRat - amount| := abs_sub_le _ _ _
      _ ≤ (size + 2 * |product.toRat|) / 10 ^ maxScale + (1 + 2 * |amount|) / 10 ^ maxScale :=
          add_le_add hdiv hmul
      _ = (size + 2 * |product.toRat| + (1 + 2 * |amount|)) / 10 ^ maxScale := (add_div _ _ _).symm
      _ ≤ 6 * (size + |amount|) / 10 ^ maxScale :=
          div_le_div_of_nonneg_right (by linarith) (by positivity)

/-- What is lost on the way to another unit and back, in the base unit. -/
theorem abs_round_trip_sub_le (ha : 1 ≤ a.multiplier.toRat) (hb : 1 ≤ b.multiplier.toRat)
    (hw : convertDecimal v a b = .ok w) (hback : convertDecimal w b a = .ok back) :
    |back.toRat - v.toRat| * a.multiplier.toRat ≤
      18 * (a.multiplier.toRat + b.multiplier.toRat + |v.toRat| * a.multiplier.toRat) /
        10 ^ maxScale := by
  have hforth := abs_amount_sub_le hb hw
  have hreturn := abs_amount_sub_le ha hback
  have hamount : |v.toRat * a.multiplier.toRat| = |v.toRat| * a.multiplier.toRat := by
    rw [abs_mul, abs_of_pos (by linarith : 0 < a.multiplier.toRat)]
  have hdifference : |back.toRat - v.toRat| * a.multiplier.toRat =
      |back.toRat * a.multiplier.toRat - v.toRat * a.multiplier.toRat| := by
    rw [← sub_mul, abs_mul, abs_of_pos (by linarith : 0 < a.multiplier.toRat)]
  rw [hdifference, ← hamount]
  generalize w.toRat * b.multiplier.toRat = there at hforth hreturn
  generalize v.toRat * a.multiplier.toRat = amount at hforth hreturn ⊢
  generalize back.toRat * a.multiplier.toRat = here at hreturn ⊢
  generalize a.multiplier.toRat = size at ha hreturn ⊢
  generalize b.multiplier.toRat = other at hb hforth ⊢
  have hsmall : 6 * (other + |amount|) / 10 ^ maxScale ≤ 6 * (other + |amount|) / 6 :=
    div_le_div_of_nonneg_left (by positivity) (by norm_num) (by norm_num [maxScale])
  have hthere : |there| ≤ other + 2 * |amount| := by
    have hgrow := abs_sub_abs_le_abs_sub there amount
    linarith
  calc |here - amount|
      ≤ |here - there| + |there - amount| := abs_sub_le _ _ _
    _ ≤ 6 * (size + |there|) / 10 ^ maxScale + 6 * (other + |amount|) / 10 ^ maxScale :=
        add_le_add hreturn hforth
    _ = (6 * (size + |there|) + 6 * (other + |amount|)) / 10 ^ maxScale := (add_div _ _ _).symm
    _ ≤ 18 * (size + other + |amount|) / 10 ^ maxScale :=
        div_le_div_of_nonneg_right (by linarith) (by positivity)

/-! ## The standard units -/

/-- The sizes of the standard units lie between one and 10^15. -/
theorem multiplier_bounds : ∀ u ∈ Standard.listedUnits,
    1 ≤ u.multiplier.toRat ∧ u.multiplier.toRat ≤ 10 ^ 15 := by
  decide +kernel

/-- A number with four places, and not too large, is found again in four places. -/
theorem convertDecimal_round_trip (ha : a ∈ Standard.units.units) (hb : b ∈ Standard.units.units)
    (hplaces : HasPlaces 4 v.toRat) (hv : |v.toRat| ≤ 10 ^ 15)
    (hw : convertDecimal v a b = .ok w) (hback : convertDecimal w b a = .ok back) :
    (back.roundTo 4 .halfAway).sameNumber v = true := by
  obtain ⟨haOne, -⟩ := multiplier_bounds a (Standard.mem_listedUnits ha)
  obtain ⟨hbOne, hbLe⟩ := multiplier_bounds b (Standard.mem_listedUnits hb)
  have hpos : 0 < a.multiplier.toRat := by linarith
  have hother : b.multiplier.toRat ≤ 10 ^ 15 * a.multiplier.toRat :=
    hbLe.trans (le_mul_of_one_le_right (by positivity) haOne)
  have hamount : |v.toRat| * a.multiplier.toRat ≤ 10 ^ 15 * a.multiplier.toRat :=
    mul_le_mul_of_nonneg_right hv hpos.le
  have hlost : |back.toRat - v.toRat| * a.multiplier.toRat <
      1 / 2 / 10 ^ 4 * a.multiplier.toRat := by
    calc |back.toRat - v.toRat| * a.multiplier.toRat
        ≤ 18 * (a.multiplier.toRat + b.multiplier.toRat + |v.toRat| * a.multiplier.toRat) /
            10 ^ maxScale := abs_round_trip_sub_le haOne hbOne hw hback
      _ ≤ 18 * ((1 + 10 ^ 15 + 10 ^ 15) * a.multiplier.toRat) / 10 ^ maxScale :=
          div_le_div_of_nonneg_right (by linarith) (by positivity)
      _ < 1 / 2 / 10 ^ 4 * a.multiplier.toRat := by
          norm_num [maxScale]
          linarith
  have hclose : |back.toRat - v.toRat| < 1 / 2 / 10 ^ 4 := lt_of_mul_lt_mul_right hlost hpos.le
  rw [Decimal.sameNumber_iff_toRat]
  exact Decimal.toRat_roundTo_of_near hplaces hclose

/-- The smallest number with four places, from the smallest unit of time into the largest one. -/
theorem convertDecimal_round_trip_nanosecond :
    let v : Decimal := .ofScaled 1 4
    let w : Decimal := .ofScaled 1653439153 28
    let back : Decimal := .ofScaled 999999999734400000000000 28
    convertDecimal v Standard.durations[0] Standard.durations[6] = .ok w ∧
      convertDecimal w Standard.durations[6] Standard.durations[0] = .ok back ∧
      back.sameNumber v = false ∧ (back.roundTo 4 .halfAway).sameNumber v = true := by
  have hw : convertDecimal (.ofScaled 1 4) Standard.durations[0] Standard.durations[6] =
      .ok (.ofScaled 1653439153 28) := by decide +kernel
  have hback : convertDecimal (.ofScaled 1653439153 28) Standard.durations[6]
      Standard.durations[0] = .ok (.ofScaled 999999999734400000000000 28) := by decide +kernel
  refine ⟨hw, hback, by decide, ?_⟩
  exact convertDecimal_round_trip (Standard.mem_units_of_listed (by decide))
    (Standard.mem_units_of_listed (by decide)) (Decimal.hasPlaces_toRat _) (by decide +kernel) hw
    hback

end LineCalc
