import LineCalc.Operation.Percent
import LineCalc.Proofs.Decimal.Within
import LineCalc.Proofs.Selection
import Mathlib.Tactic.FieldSimp

/-!
# Percent phrases undo each other

Applying a percentage to an amount multiplies the amount by a factor. The `what is` form of the
phrase divides by this factor, and the comparing form finds the percentage again. Percentages and
amounts with few digits leave room for every intermediate result, so that nothing is rounded and the
phrases undo each other exactly.

* **`HasRoom`**: numbers that a decimal holds exactly, whatever operation gives them.
* **`HasRoom.exists_add`** and its siblings: with room for the result, an operation is exact.
* **`ComparePhrase.formula_applied`**, **`formula_whatIs`**, **`formula_compared`**: what the three
  forms of a phrase give.
* **`ComparePhrase.onValues_inverse`**: the phrases on values, with their units.
-/

namespace LineCalc

open Decimal

/-! ## Numbers with room -/

/-- A number that a decimal holds exactly, whatever operation gives it. -/
def HasRoom (x : ℚ) : Prop :=
  Within 10 (2 * 10 ^ 16) x

theorem Within.hasRoom {places : Nat} {bound x : ℚ} (hx : Within places bound x)
    (hplaces : places ≤ 10 := by norm_num) (hbound : bound ≤ 2 * 10 ^ 16 := by norm_num) :
    HasRoom x :=
  hx.mono hplaces hbound

/-! ## Operations that round nothing -/

theorem toRat_hundred : Decimal.hundred.toRat = 100 := by
  norm_num [Decimal.hundred, toRat, ofInt]

namespace HasRoom

variable {x y : Decimal} {z : ℚ}

theorem exists_inRange {d : Option Decimal} {mode : Rounding} (hz : HasRoom z)
    (h : d.map toRat = (nearest? mode z maxScale).map toRat) :
    ∃ r, inRange d = .ok r ∧ r.toRat = z := by
  obtain ⟨r, rfl, hr⟩ := Within.exists_exact hz (by decide)
    (by rw [cast_mantissaBound]; norm_num) h
  exact ⟨r, rfl, hr⟩

theorem exists_add (h : HasRoom (x.toRat + y.toRat)) :
    ∃ r, inRange (x.add? y) = .ok r ∧ r.toRat = x.toRat + y.toRat :=
  h.exists_inRange (map_toRat_add? x y)

theorem exists_sub (h : HasRoom (x.toRat - y.toRat)) :
    ∃ r, inRange (x.sub? y) = .ok r ∧ r.toRat = x.toRat - y.toRat := by
  have hsub := map_toRat_add? x y.neg
  rw [toRat_neg, ← sub_eq_add_neg] at hsub
  exact h.exists_inRange hsub

theorem exists_mul (h : HasRoom (x.toRat * y.toRat)) :
    ∃ r, inRange (x.mul? y) = .ok r ∧ r.toRat = x.toRat * y.toRat :=
  h.exists_inRange (map_toRat_mul? x y)

theorem exists_quotient (h : HasRoom (x.toRat / y.toRat)) (hy : y.toRat ≠ 0) :
    ∃ r, quotient x y = .ok r ∧ r.toRat = x.toRat / y.toRat := by
  obtain ⟨mode, -, hdiv⟩ := map_toRat_div? x hy
  have hzero : y.isZero = false := Bool.eq_false_iff.2 fun h => hy (isZero_iff_toRat.1 h)
  rw [quotient, hzero, if_neg Bool.false_ne_true]
  exact h.exists_inRange hdiv

theorem exists_hundredth (h : HasRoom (y.toRat / 100)) :
    ∃ r, quotient y .hundred = .ok r ∧ r.toRat = y.toRat / 100 := by
  have hne : Decimal.hundred.toRat ≠ 0 := by
    rw [toRat_hundred]
    norm_num
  rw [← toRat_hundred] at h ⊢
  exact h.exists_quotient hne

end HasRoom

/-! ## The forms of a phrase -/

namespace ComparePhrase

/-- The phrase that applies a percentage. -/
def applied : ComparePhrase → PercentPhrase
  | of => .of
  | on => .on
  | off => .off

/-- The phrase that asks what a percentage was applied to. -/
def whatIs : ComparePhrase → PercentPhrase
  | of => .ofWhatIs
  | on => .onWhatIs
  | off => .offWhatIs

/-- What a percentage multiplies an amount by, in hundredths. -/
def factor : ComparePhrase → ℚ → ℚ
  | of, x => x
  | on, x => x + 100
  | off, x => 100 - x

/-- The percentage that leaves nothing of an amount. -/
def vanishing : ComparePhrase → ℚ
  | of => 0
  | on => -100
  | off => 100

theorem factor_ne_zero {k : ComparePhrase} {x : ℚ} (h : x ≠ k.vanishing) : k.factor x ≠ 0 := by
  intro hzero
  apply h
  cases k <;> simp only [factor, vanishing] at hzero ⊢ <;> linarith

variable {x y r : Decimal}

theorem within_factor (k : ComparePhrase) {x : ℚ} (hx : Within 4 (10 ^ 6) x) :
    Within 4 (10 ^ 6 + 100) (k.factor x) := by
  have hhundred : Within 4 100 100 := ⟨⟨100 * 10 ^ 4, by norm_num⟩, by norm_num⟩
  cases k with
  | of => exact hx.mono le_rfl (by norm_num)
  | on => exact hx.add hhundred
  | off => exact (hhundred.sub hx).mono le_rfl (by norm_num)

/-- The factor of a phrase is computed exactly, where it is computed at all. -/
theorem exists_factor (hx : Within 4 (10 ^ 6) x.toRat) :
    (∃ f, inRange (x.add? .hundred) = .ok f ∧ f.toRat = on.factor x.toRat) ∧
      ∃ f, inRange (Decimal.hundred.sub? x) = .ok f ∧ f.toRat = off.factor x.toRat := by
  have hon : HasRoom (on.factor x.toRat) := (on.within_factor hx).hasRoom
  have hoff : HasRoom (off.factor x.toRat) := (off.within_factor hx).hasRoom
  constructor
  · rw [factor, ← toRat_hundred] at hon ⊢
    exact hon.exists_add
  · rw [factor, ← toRat_hundred] at hoff ⊢
    exact hoff.exists_sub

/-- A percentage is applied to an amount without rounding. -/
theorem formula_applied (k : ComparePhrase) (hx : Within 4 (10 ^ 6) x.toRat)
    (hy : Within 4 (10 ^ 12) y.toRat) :
    ∃ r, k.applied.formula x y = .ok r ∧ r.toRat = y.toRat / 100 * k.factor x.toRat := by
  obtain ⟨share, hshare, hshareValue⟩ := hy.div_hundred.hasRoom.exists_hundredth
  have hproduct : ∀ f : Decimal, f.toRat = k.factor x.toRat →
      ∃ r, inRange (share.mul? f) = .ok r ∧ r.toRat = y.toRat / 100 * k.factor x.toRat := by
    intro f hf
    rw [← hf, ← hshareValue]
    apply HasRoom.exists_mul
    rw [hf, hshareValue]
    exact (hy.div_hundred.mul (k.within_factor hx)).hasRoom
  obtain ⟨⟨sum, hsum, hsumValue⟩, difference, hdifference, hdifferenceValue⟩ := exists_factor hx
  cases k with
  | of =>
    obtain ⟨r, hmul, hr⟩ := hproduct x rfl
    refine ⟨r, ?_, hr⟩
    simp only [applied, PercentPhrase.formula, hshare, bind, Except.bind, hmul]
  | on =>
    obtain ⟨r, hmul, hr⟩ := hproduct sum hsumValue
    refine ⟨r, ?_, hr⟩
    simp only [applied, PercentPhrase.formula, hshare, hsum, bind, Except.bind, hmul]
  | off =>
    obtain ⟨r, hmul, hr⟩ := hproduct difference hdifferenceValue
    refine ⟨r, ?_, hr⟩
    simp only [applied, PercentPhrase.formula, hshare, hdifference, bind, Except.bind, hmul]

/-- A quotient that is a share of a hundred, and a hundred times this share. -/
theorem exists_hundred_times {z : ℚ} (hz : Within 4 (10 ^ 12) z) (hy : y.toRat ≠ 0)
    (hquotient : x.toRat / y.toRat = z / 100) :
    ∃ share r, quotient x y = .ok share ∧ inRange (share.mul? .hundred) = .ok r ∧ r.toRat = z := by
  have hroom : HasRoom (x.toRat / y.toRat) := by
    rw [hquotient]
    exact hz.div_hundred.hasRoom
  obtain ⟨share, hshare, hvalue⟩ := hroom.exists_quotient hy
  have hback : share.toRat * Decimal.hundred.toRat = z := by
    rw [hvalue, hquotient, toRat_hundred, div_mul_cancel₀ z (by norm_num)]
  obtain ⟨r, hmul, hr⟩ := HasRoom.exists_mul (hback.symm ▸ hz.hasRoom)
  exact ⟨share, r, hshare, hmul, hr.trans hback⟩

/-- The `what is` form gives the amount back. -/
theorem formula_whatIs (k : ComparePhrase) (hx : Within 4 (10 ^ 6) x.toRat)
    (hy : Within 4 (10 ^ 12) y.toRat) (hfactor : k.factor x.toRat ≠ 0)
    (hr : r.toRat = y.toRat / 100 * k.factor x.toRat) :
    ∃ z, k.whatIs.formula x r = .ok z ∧ z.toRat = y.toRat := by
  have hback : ∀ f : Decimal, f.toRat = k.factor x.toRat →
      ∃ share z, quotient r f = .ok share ∧ inRange (share.mul? .hundred) = .ok z ∧
        z.toRat = y.toRat := by
    intro f hf
    refine exists_hundred_times hy (hf ▸ hfactor) ?_
    rw [hr, hf, mul_div_cancel_right₀ _ hfactor]
  obtain ⟨⟨sum, hsum, hsumValue⟩, difference, hdifference, hdifferenceValue⟩ := exists_factor hx
  cases k with
  | of =>
    obtain ⟨share, z, hshare, hmul, hz⟩ := hback x rfl
    refine ⟨z, ?_, hz⟩
    simp only [whatIs, PercentPhrase.formula, hshare, bind, Except.bind, hmul]
  | on =>
    obtain ⟨share, z, hshare, hmul, hz⟩ := hback sum hsumValue
    refine ⟨z, ?_, hz⟩
    simp only [whatIs, PercentPhrase.formula, hsum, hshare, bind, Except.bind, hmul]
  | off =>
    obtain ⟨share, z, hshare, hmul, hz⟩ := hback difference hdifferenceValue
    refine ⟨z, ?_, hz⟩
    simp only [whatIs, PercentPhrase.formula, hdifference, hshare, bind, Except.bind, hmul]

/-- The comparing form gives the percentage back. -/
theorem formula_compared (k : ComparePhrase) (hx : Within 4 (10 ^ 6) x.toRat)
    (hy : Within 4 (10 ^ 12) y.toRat) (hne : y.toRat ≠ 0)
    (hr : r.toRat = y.toRat / 100 * k.factor x.toRat) :
    ∃ z, k.formula r y = .ok z ∧ z.toRat = x.toRat := by
  have hwide : Within 4 (10 ^ 12) x.toRat := hx.mono le_rfl (by norm_num)
  have hback : ∀ d : Decimal, d.toRat = y.toRat / 100 * x.toRat →
      ∃ share z, quotient d y = .ok share ∧ inRange (share.mul? .hundred) = .ok z ∧
        z.toRat = x.toRat := by
    intro d hd
    refine exists_hundred_times hwide hne ?_
    rw [hd, div_mul_eq_mul_div, mul_comm, div_right_comm, mul_div_cancel_right₀ _ hne]
  have hchange : HasRoom (y.toRat / 100 * x.toRat) := (hy.div_hundred.mul hx).hasRoom
  cases k with
  | of =>
    obtain ⟨share, z, hshare, hmul, hz⟩ := hback r hr
    refine ⟨z, ?_, hz⟩
    simp only [formula, hshare, bind, Except.bind, hmul]
  | on =>
    have hexcess : r.toRat - y.toRat = y.toRat / 100 * x.toRat := by
      rw [hr, factor]
      ring
    obtain ⟨d, hd, hvalue⟩ := HasRoom.exists_sub (hexcess.symm ▸ hchange)
    obtain ⟨share, z, hshare, hmul, hz⟩ := hback d (hvalue.trans hexcess)
    refine ⟨z, ?_, hz⟩
    simp only [formula, hd, hshare, bind, Except.bind, hmul]
  | off =>
    have hshortfall : y.toRat - r.toRat = y.toRat / 100 * x.toRat := by
      rw [hr, factor]
      ring
    obtain ⟨d, hd, hvalue⟩ := HasRoom.exists_sub (hshortfall.symm ▸ hchange)
    obtain ⟨share, z, hshare, hmul, hz⟩ := hback d (hvalue.trans hshortfall)
    refine ⟨z, ?_, hz⟩
    simp only [formula, hd, hshare, bind, Except.bind, hmul]

end ComparePhrase

/-! ## The phrases on values -/

theorem PercentPhrase.onValues_of_formula (p : PercentPhrase) {X Y : Quantity} {d : Decimal}
    (hpercent : X.unit.isPercent = true) (h : p.formula X.value Y.value = .ok d) :
    p.onValues (.number X) (.number Y) = .ok (.number ⟨d, Y.unit⟩) := by
  simp [onValues, Value.expectNumber, bind, Except.bind, hpercent, h, pure, Except.pure]

namespace ComparePhrase

theorem inUnitOf_of_unit {X Y : Quantity} (hunit : X.unit = Y.unit) :
    inUnitOf X Y = .ok Y.value := by
  unfold inUnitOf
  split
  · rfl
  · rw [hunit, Quantity.convertTo_unit]

theorem onValues_of_formula (k : ComparePhrase) {X Y : Quantity} {d : Decimal}
    (hunit : X.unit = Y.unit) (hamount : Y.unit.isPercent = false)
    (h : k.formula X.value Y.value = .ok d) :
    k.onValues (.number X) (.number Y) = .ok (.number ⟨d, .percent⟩) := by
  simp [onValues, Value.expectNumber, bind, Except.bind, hunit, hamount, inUnitOf_of_unit hunit, h,
    pure, Except.pure]

/--
For each of the phrases with `on`, `off` and `of`: a percentage X and an amount Y that is no
percentage, both with at most four places, give an amount in the unit of Y. From it and X the
`what is` form finds Y again, unless X leaves nothing; from it and Y the comparing form finds X again
in percent, unless Y is zero. Nothing is rounded, and nothing fails.
-/
theorem onValues_inverse (k : ComparePhrase) {X Y : Quantity} (hpercent : X.unit.isPercent = true)
    (hamount : Y.unit.isPercent = false) (hXplaces : HasPlaces 4 X.value.toRat)
    (hXsize : |X.value.toRat| ≤ 10 ^ 6) (hYplaces : HasPlaces 4 Y.value.toRat)
    (hYsize : |Y.value.toRat| ≤ 10 ^ 12) :
    ∃ r : Decimal, k.applied.onValues (.number X) (.number Y) = .ok (.number ⟨r, Y.unit⟩) ∧
      (X.value.toRat ≠ k.vanishing →
        ∃ y, k.whatIs.onValues (.number X) (.number ⟨r, Y.unit⟩) = .ok (.number ⟨y, Y.unit⟩) ∧
          y.toRat = Y.value.toRat) ∧
      (Y.value.toRat ≠ 0 →
        ∃ x, k.onValues (.number ⟨r, Y.unit⟩) (.number Y) = .ok (.number ⟨x, .percent⟩) ∧
          x.toRat = X.value.toRat) := by
  have hX : Within 4 (10 ^ 6) X.value.toRat := ⟨hXplaces, hXsize⟩
  have hY : Within 4 (10 ^ 12) Y.value.toRat := ⟨hYplaces, hYsize⟩
  obtain ⟨r, happlied, hr⟩ := k.formula_applied hX hY
  refine ⟨r, k.applied.onValues_of_formula hpercent happlied, fun hvanishing => ?_, fun hne => ?_⟩
  · obtain ⟨y, hwhatIs, hy⟩ := k.formula_whatIs hX hY (factor_ne_zero hvanishing) hr
    exact ⟨y, k.whatIs.onValues_of_formula hpercent hwhatIs, hy⟩
  · obtain ⟨x, hcompared, hx⟩ := k.formula_compared hX hY hne hr
    exact ⟨x, k.onValues_of_formula rfl hamount hcompared, hx⟩

/-- Minus 12.5 % off an amount below zero makes it larger, and is found again. -/
theorem onValues_inverse_off :
    ∃ r y x : Decimal,
      PercentPhrase.off.onValues (.number ⟨.ofScaled (-125) 1, .percent⟩)
          (Value.plain (.ofInt (-80))) = .ok (Value.plain r) ∧
        PercentPhrase.offWhatIs.onValues
          (.number ⟨.ofScaled (-125) 1, .percent⟩) (Value.plain r) =
          .ok (Value.plain y) ∧
        off.onValues (Value.plain r) (Value.plain (.ofInt (-80))) = .ok (.number ⟨x, .percent⟩) ∧
        y.toRat = -80 ∧ x.toRat = -25 / 2 := by
  have hX : (Decimal.ofScaled (-125) 1).toRat = -25 / 2 := by
    norm_num [toRat, ofScaled]
  have hY : (Decimal.ofInt (-80)).toRat = -80 := by norm_num [toRat, ofInt]
  obtain ⟨r, happlied, hwhatIs, hcompared⟩ := off.onValues_inverse
    (X := ⟨.ofScaled (-125) 1, .percent⟩) (Y := ⟨.ofInt (-80), .unitless⟩)
    (by decide) (by decide) ⟨-125000, by rw [hX]; norm_num⟩ (by rw [hX]; norm_num [abs_le])
    ⟨-800000, by rw [hY]; norm_num⟩ (by rw [hY]; norm_num [abs_le])
  obtain ⟨y, hy, hyValue⟩ := hwhatIs (by rw [hX, vanishing]; norm_num)
  obtain ⟨x, hx, hxValue⟩ := hcompared (by rw [hY]; norm_num)
  exact ⟨r, y, x, happlied, hy, hx, hyValue.trans hY, hxValue.trans hX⟩

end ComparePhrase

end LineCalc
