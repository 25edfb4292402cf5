import LineCalc.Operation
import LineCalc.Proofs.Decimal.RoundingError
import LineCalc.Proofs.PercentPhrases
import LineCalc.Proofs.ReadBack

/-!
# Operators with a percentage on the right

With a percentage on its right, an operator computes what a percent phrase computes with the
percentage on its left, but in another order: the operator multiplies first and divides by a hundred
then, the phrase the other way round. Sums, differences and products are exact in both orders. A
quotient is rounded in both, and at different places; but a quotient of numbers with few digits is
either exact or so far from every half that it is shown alike.

* **`Arithmetic.phrase`**: the phrase that says what an operator does with a percentage.
* **`Arithmetic.exists_relative`**: sums, differences and products are those of the phrase.
* **`StandsFor`**: a result close to a quotient, and equal to it if it has few digits.
* **`StandsFor.toRat_roundTo`**: four places show all that stands for one quotient alike.
* **`Arithmetic.exists_divide`**, **`PercentPhrase.exists_ofWhatIs`**: both quotients stand for the
  exact one.
* **`Arithmetic.apply_phrase`**: operators and phrases on values.
-/

namespace LineCalc

open Decimal

/-! ## What is shown -/

namespace NumberFormat

/-- Numbers that are rounded alike are shown alike. -/
theorem formatValue_of_roundTo {f : NumberFormat} {d d' : Decimal} (u : MeasureUnit)
    (h : (d.roundTo f.precision .halfAway).toRat = (d'.roundTo f.precision .halfAway).toRat) :
    f.formatValue (.number ⟨d, u⟩) = f.formatValue (.number ⟨d', u⟩) := by
  have hround : f.round d = f.round d' := normalize_congr h
  have hshown := f.formatValue_round ⟨d, u⟩
  rw [← hshown, hround]
  exact f.formatValue_round ⟨d', u⟩

end NumberFormat

/-! ## Exact shares -/

variable {x y : Decimal}

/-- The share that an operator starts with: the product, and then its hundredth part. -/
theorem exists_share (hx : Within 4 (10 ^ 6) x.toRat) (hy : Within 4 (10 ^ 12) y.toRat) :
    ∃ share, inRange ((y.mul? x).bind (·.div? .hundred)) = .ok share ∧
      share.toRat = y.toRat / 100 * x.toRat := by
  have hproduct : (y.mul? x).map toRat = some (y.toRat * x.toRat) := by
    rw [map_toRat_mul?]
    exact (hy.mul hx).map_toRat_nearest? (by decide) (by rw [cast_mantissaBound]; norm_num) _
  obtain ⟨product, hmul, hvalue⟩ := Option.map_eq_some_iff.1 hproduct
  have hroom : HasRoom (product.toRat / 100) := by
    rw [hvalue]
    exact (hy.mul hx).div_hundred.hasRoom
  obtain ⟨share, hshare, hshareValue⟩ := hroom.exists_hundredth
  refine ⟨share, ?_, ?_⟩
  · rw [hmul]
    exact hshare
  · rw [hshareValue, hvalue]
    ring

namespace Arithmetic

/-- The phrase that says what an operator does with a percentage on its right. -/
def phrase : Arithmetic → PercentPhrase
  | add => .on
  | subtract => .off
  | multiply => .of
  | divide => .ofWhatIs

/-- Sums, differences and products with a percentage are those of the phrase. -/
theorem exists_relative {op : Arithmetic} (hop : op ≠ divide) {Y : Quantity}
    (hx : Within 4 (10 ^ 6) x.toRat) (hy : Within 4 (10 ^ 12) Y.value.toRat) :
    ∃ r r' : Decimal, op.relative Y x = .ok { Y with value := r } ∧
      op.phrase.formula x Y.value = .ok r' ∧ r.toRat = r'.toRat := by
  obtain ⟨share, hshare, hvalue⟩ := exists_share hx hy
  have hroom : ∀ k : ComparePhrase, HasRoom (Y.value.toRat / 100 * k.factor x.toRat) :=
    fun k => (hy.div_hundred.mul (k.within_factor hx)).hasRoom
  cases op with
  | add =>
    have hsum : Y.value.toRat + share.toRat = Y.value.toRat / 100 * ComparePhrase.on.factor x.toRat := by
      rw [hvalue, ComparePhrase.factor]
      ring
    obtain ⟨r, hr, hrValue⟩ := HasRoom.exists_add (hsum ▸ hroom .on)
    obtain ⟨r', hr', hrValue'⟩ := ComparePhrase.on.formula_applied hx hy
    refine ⟨r, r', ?_, hr', by rw [hrValue, hsum, hrValue']⟩
    simp only [relative, hshare, hr, bind, Except.bind, pure, Except.pure]
  | subtract =>
    have hdifference :
        Y.value.toRat - share.toRat = Y.value.toRat / 100 * ComparePhrase.off.factor x.toRat := by
      rw [hvalue, ComparePhrase.factor]
      ring
    obtain ⟨r, hr, hrValue⟩ := HasRoom.exists_sub (hdifference ▸ hroom .off)
    obtain ⟨r', hr', hrValue'⟩ := ComparePhrase.off.formula_applied hx hy
    refine ⟨r, r', ?_, hr', by rw [hrValue, hdifference, hrValue']⟩
    simp only [relative, hshare, hr, bind, Except.bind, pure, Except.pure]
  | multiply =>
    obtain ⟨r', hr', hrValue'⟩ := ComparePhrase.of.formula_applied hx hy
    refine ⟨share, r', ?_, hr', by rw [hvalue, hrValue', ComparePhrase.factor]⟩
    simp only [relative, hshare, bind, Except.bind, pure, Except.pure]
  | divide => exact absurd rfl hop

end Arithmetic

/-! ## Quotients that are rounded -/

/-- Up to this limit a result is off by its last place only, and by nothing if it has seven places. -/
theorem exists_close {d : Option Decimal} {mode : Rounding} {z : ℚ} (hz : |z| ≤ 2 * 10 ^ 18)
    (h : d.map toRat = (nearest? mode z maxScale).map toRat) :
    ∃ r, d = some r ∧ |r.toRat - z| ≤ errorBound z ∧ (HasPlaces 7 z → r.toRat = z) := by
  obtain ⟨nearest, hnearest⟩ := exists_nearest? mode (n := 2 * 10 ^ 18) (by decide)
    (by exact_mod_cast hz) (le_refl maxScale)
  rw [hnearest, Option.map_some] at h
  obtain ⟨r, rfl, hr⟩ := Option.map_eq_some_iff.1 h
  refine ⟨r, rfl, ?_, fun hplaces => ?_⟩
  · rw [hr]
    exact abs_sub_le_of_nearest? hnearest
  · have hkept := Within.map_toRat_nearest? ⟨hplaces, hz⟩ (by decide)
      (by rw [cast_mantissaBound]; norm_num) mode
    rw [hnearest, Option.map_some, Option.some_inj] at hkept
    rw [hr, hkept]

theorem exists_div?_close (hy : y.toRat ≠ 0) (hsize : |x.toRat / y.toRat| ≤ 2 * 10 ^ 18) :
    ∃ r, x.div? y = some r ∧ |r.toRat - x.toRat / y.toRat| ≤ errorBound (x.toRat / y.toRat) ∧
      (HasPlaces 7 (x.toRat / y.toRat) → r.toRat = x.toRat / y.toRat) := by
  obtain ⟨mode, -, hdiv⟩ := map_toRat_div? x hy
  exact exists_close hsize hdiv

/-- A result that stands for a hundred times a quotient. -/
structure StandsFor (r y x : ℚ) : Prop where
  near : |r - y / x * 100| ≤ 400 * (1 + |y / x|) / 10 ^ maxScale
  exact : HasPlaces 5 (y / x * 100) → r = y / x * 100

/-- Four places cannot tell apart what stands for one quotient. -/
theorem StandsFor.toRat_roundTo {r : Decimal} (h : StandsFor r.toRat y.toRat x.toRat)
    (hx : Within 4 (10 ^ 6) x.toRat) (hy : Within 4 (10 ^ 12) y.toRat) (hne : x.toRat ≠ 0) :
    (r.roundTo 4 .halfAway).toRat =
      Rounding.halfAway.toInt (y.toRat / x.toRat * 100 * 10 ^ 4) / 10 ^ 4 := by
  rw [Decimal.toRat_roundTo]
  set q := y.toRat / x.toRat * 100 with hq
  congr 2
  by_cases hhalf : ∃ k : Int, 2 * (q * 10 ^ 4) = k
  · -- a half is a number with five places, and then nothing was rounded
    obtain ⟨k, hk⟩ := hhalf
    have hplaces : HasPlaces 5 q := ⟨5 * k, by push_cast; rw [← hk]; ring⟩
    rw [h.exact hplaces]
  · rw [not_exists] at hhalf
    obtain ⟨n, hn⟩ := hx.grid
    obtain ⟨k, hk⟩ := hy.grid
    have hsize : (n.natAbs : ℚ) = |x.toRat| * 10 ^ 4 := by
      rw [Nat.cast_natAbs, Int.cast_abs, ← hn, abs_mul_pow]
    have hpos : 0 < n.natAbs := by
      apply Int.natAbs_pos.2
      rintro rfl
      rw [Int.cast_zero, mul_eq_zero, or_iff_left (by norm_num)] at hn
      exact hne hn
    have hfraction : ∃ a : Int, q * 10 ^ 4 * n.natAbs = a := by
      rcases abs_choice x.toRat with habs | habs
      · refine ⟨k * 10 ^ 6, ?_⟩
        push_cast
        rw [hsize, habs, hq, ← hk]
        field_simp
        ring
      · refine ⟨-(k * 10 ^ 6), ?_⟩
        push_cast
        rw [hsize, habs, hq, ← hk]
        field_simp
        ring
    obtain ⟨a, ha⟩ := hfraction
    apply Rounding.toInt_halfAway_of_near hpos ha hhalf
    have hxpos : 0 < |x.toRat| := abs_pos.2 hne
    have hsum : |x.toRat| * (1 + |y.toRat / x.toRat|) ≤ 10 ^ 6 + 10 ^ 12 := by
      rw [abs_div, mul_add, mul_one, mul_div_cancel₀ _ hxpos.ne']
      exact add_le_add hx.size hy.size
    rw [← sub_mul, abs_mul_pow, lt_div_iff₀ (by positivity), hsize]
    calc |r.toRat - q| * 10 ^ 4 * (2 * (|x.toRat| * 10 ^ 4))
        ≤ 400 * (1 + |y.toRat / x.toRat|) / 10 ^ maxScale * 10 ^ 4 * (2 * (|x.toRat| * 10 ^ 4)) := by
          gcongr
          exact h.near
      _ = 800 * 10 ^ 8 / 10 ^ maxScale * (|x.toRat| * (1 + |y.toRat / x.toRat|)) := by ring
      _ ≤ 800 * 10 ^ 8 / 10 ^ maxScale * (10 ^ 6 + 10 ^ 12) := by gcongr
      _ < 1 := by norm_num [maxScale]

/-- The quotient by a percentage is at most ten thousand times as large as the amount. -/
theorem abs_div_le (hx : Within 4 (10 ^ 6) x.toRat) (hy : Within 4 (10 ^ 12) y.toRat)
    (hne : x.toRat ≠ 0) : |y.toRat / x.toRat| ≤ 10 ^ 16 := by
  obtain ⟨n, hn⟩ := hx.grid
  have hone : 1 ≤ |x.toRat| * 10 ^ 4 := by
    rw [← abs_mul_pow, hn]
    have hnonzero : n ≠ 0 := by
      rintro rfl
      rw [Int.cast_zero, mul_eq_zero, or_iff_left (by norm_num)] at hn
      exact hne hn
    exact_mod_cast Int.one_le_abs hnonzero
  rw [abs_div, div_le_iff₀ (abs_pos.2 hne)]
  have hsize := hy.size
  linarith

namespace Arithmetic

theorem exists_divide {Y : Quantity} (hx : Within 4 (10 ^ 6) x.toRat)
    (hy : Within 4 (10 ^ 12) Y.value.toRat) (hne : x.toRat ≠ 0) :
    ∃ r, divide.relative Y x = .ok { Y with value := r } ∧
      StandsFor r.toRat Y.value.toRat x.toRat := by
  obtain ⟨share, hshare, -⟩ := exists_share hx hy
  have hzero : x.isZero = false := Bool.eq_false_iff.2 fun h => hne (isZero_iff_toRat.1 h)
  -- the percentage as a fraction is exact
  obtain ⟨part, hpart, -, hpartValue⟩ := exists_div?_close (x := x) (y := .hundred)
    (by rw [toRat_hundred]; norm_num)
    (by rw [toRat_hundred]; exact hx.div_hundred.size.trans (by norm_num))
  rw [toRat_hundred] at hpartValue
  have hvalue : part.toRat = x.toRat / 100 := hpartValue (hx.div_hundred.grid.mono (by norm_num))
  have hquotient : Y.value.toRat / part.toRat = Y.value.toRat / x.toRat * 100 := by
    rw [hvalue, div_div_eq_mul_div, mul_div_right_comm]
  have hsize : |Y.value.toRat / x.toRat * 100| ≤ 2 * 10 ^ 18 := by
    rw [abs_mul, abs_of_pos (by norm_num : (0 : ℚ) < 100)]
    linarith [abs_div_le hx hy hne]
  obtain ⟨r, hr, hnear, hexact⟩ := exists_div?_close (x := Y.value) (y := part)
    (by rw [hvalue]; exact div_ne_zero hne (by norm_num)) (by rwa [hquotient])
  rw [hquotient] at hnear hexact
  have hresult : inRange ((x.div? .hundred).bind Y.value.div?) = .ok r := by
    rw [hpart, Option.bind_some, hr]
    rfl
  refine ⟨r, ?_, ⟨hnear.trans ?_, fun hplaces => hexact (hplaces.mono (by norm_num))⟩⟩
  · simp only [relative, hshare, hzero, hresult, bind, Except.bind, pure, Except.pure,
      Bool.false_eq_true, if_false]
  · rw [errorBound, abs_mul, abs_of_pos (by norm_num : (0 : ℚ) < 100)]
    gcongr
    linarith [abs_nonneg (Y.value.toRat / x.toRat)]

end Arithmetic

namespace PercentPhrase

theorem exists_ofWhatIs (hx : Within 4 (10 ^ 6) x.toRat) (hy : Within 4 (10 ^ 12) y.toRat)
    (hne : x.toRat ≠ 0) :
    ∃ r, ofWhatIs.formula x y = .ok r ∧ StandsFor r.toRat y.toRat x.toRat := by
  have hsize := abs_div_le hx hy hne
  have hzero : x.isZero = false := Bool.eq_false_iff.2 fun h => hne (isZero_iff_toRat.1 h)
  obtain ⟨share, hshare, hshareNear, hshareExact⟩ := exists_div?_close hne (hsize.trans (by norm_num))
  set t := y.toRat / x.toRat with ht
  have hlost : errorBound t ≤ 1 := by
    rw [errorBound, div_le_one (by positivity)]
    norm_num [maxScale]
    linarith
  have hshareSize : |share.toRat| ≤ |t| + 1 := by
    have hgrow := abs_sub_abs_le_abs_sub share.toRat t
    linarith
  obtain ⟨r, hr, hnear, hexact⟩ := exists_close (d := share.mul? .hundred)
    (z := share.toRat * Decimal.hundred.toRat)
    (by rw [toRat_hundred, abs_mul, abs_of_pos (by norm_num : (0 : ℚ) < 100)]; linarith)
    (map_toRat_mul? share .hundred)
  rw [toRat_hundred] at hnear hexact
  refine ⟨r, ?_, ⟨?_, fun hplaces => ?_⟩⟩
  · simp only [formula, quotient, hzero, hshare, hr, inRange, bind, Except.bind, Bool.false_eq_true,
      if_false]
  · have hpart : |share.toRat * 100 - t * 100| ≤ 100 * errorBound t := by
      rw [← sub_mul, abs_mul, abs_of_pos (by norm_num : (0 : ℚ) < 100), mul_comm]
      exact mul_le_mul_of_nonneg_left hshareNear (by norm_num)
    calc |r.toRat - t * 100|
        ≤ |r.toRat - share.toRat * 100| + |share.toRat * 100 - t * 100| := abs_sub_le _ _ _
      _ ≤ errorBound (share.toRat * 100) + 100 * errorBound t := add_le_add hnear hpart
      _ = (1 + 2 * (|share.toRat| * 100) + 100 * (1 + 2 * |t|)) / 10 ^ maxScale := by
          rw [errorBound, errorBound, abs_mul, abs_of_pos (by norm_num : (0 : ℚ) < 100)]
          ring
      _ ≤ 400 * (1 + |t|) / 10 ^ maxScale := by
          gcongr
          linarith
  · -- with five places in a hundred times it, the quotient itself has seven
    have hquotient : HasPlaces 7 t := by
      obtain ⟨k, hk⟩ := hplaces
      exact ⟨k, by rw [← hk]; ring⟩
    rw [hshareExact hquotient] at hexact
    exact hexact (hplaces.mono (by norm_num))

end PercentPhrase

/-! ## Operators and phrases on values -/

namespace Arithmetic

/-- With a percentage on the right of anything else, an operator applies it. -/
theorem onValues_of_relative {op : Arithmetic} {X Y : Quantity} {r : Decimal}
    (hpercent : X.unit.isPercent = true) (hamount : Y.unit.isPercent = false)
    (h : op.relative Y X.value = .ok { Y with value := r }) :
    op.onValues (.number Y) (.number X) = .ok (.number ⟨r, Y.unit⟩) := by
  simp only [onValues, Value.expectNumber, onQuantities, hpercent, hamount, Bool.not_false,
    Bool.and_self, if_true, h, bind, Except.bind, pure, Except.pure]

theorem apply_eq_onValues (op : Arithmetic) (units : Registry) (X Y : Quantity) :
    (BinaryOperation.arithmetic op).apply units (.number X) (.number Y) =
      op.onValues (.number X) (.number Y) := by
  cases op <;> rfl

/-- A percentage on the left of a plain number cannot be added to or subtracted from. -/
theorem onValues_mixed {op : Arithmetic} (hop : op.isAdditive = true) {X Y : Quantity}
    (hpercent : X.unit.isPercent = true) (hplain : Y.unit.isUnitless = true) :
    op.onValues (.number X) (.number Y) = .error (.mixesPercentage op.symbol) := by
  have hamount : Y.unit.isPercent = false := by
    rw [MeasureUnit.isUnitless, beq_iff_eq] at hplain
    rw [MeasureUnit.isPercent, hplain]
    decide
  have hmixes : op.mixes X Y = true := by
    simp [mixes, hop, hpercent, hamount, hplain]
  simp only [onValues, Value.expectNumber, onQuantities, align, hamount, hmixes, Bool.false_and,
    Bool.false_eq_true, if_true, if_false, bind, Except.bind]

/--
An operator with a percentage X on the right of an amount Y that is none, and the phrase with X on the
left, give the same number in the unit of Y for sums, differences and products, and numbers that are
shown alike in four places for quotients, if X and Y have at most four places, X is up to 10^6 and Y
up to 10^12. With X on the left of a plain number, sums and differences fail, whatever the numbers.
-/
theorem apply_phrase (units : Registry) {X Y : Quantity} (hpercent : X.unit.isPercent = true)
    (hamount : Y.unit.isPercent = false) :
    (Within 4 (10 ^ 6) X.value.toRat → Within 4 (10 ^ 12) Y.value.toRat → ∀ op : Arithmetic,
      (op = divide → X.value.toRat ≠ 0) →
      ∃ r r' : Decimal,
        (BinaryOperation.arithmetic op).apply units (.number Y) (.number X) =
            .ok (.number ⟨r, Y.unit⟩) ∧
          (BinaryOperation.percent op.phrase).apply units (.number X) (.number Y) =
            .ok (.number ⟨r', Y.unit⟩) ∧
          (op ≠ divide → r.toRat = r'.toRat) ∧
          ∀ f : NumberFormat, f.precision = 4 →
            f.formatValue (.number ⟨r, Y.unit⟩) = f.formatValue (.number ⟨r', Y.unit⟩)) ∧
      (Y.unit.isUnitless = true → ∀ op : Arithmetic, op.isAdditive = true →
        (BinaryOperation.arithmetic op).apply units (.number X) (.number Y) =
          .error (.mixesPercentage op.symbol)) := by
  constructor
  · intro hX hY op hdivisor
    have hphrase : ∀ {r' : Decimal}, op.phrase.formula X.value Y.value = .ok r' →
        (BinaryOperation.percent op.phrase).apply units (.number X) (.number Y) =
          .ok (.number ⟨r', Y.unit⟩) :=
      fun h => op.phrase.onValues_of_formula hpercent h
    by_cases hop : op = divide
    · subst hop
      have hne : X.value.toRat ≠ 0 := hdivisor rfl
      obtain ⟨r, hr, hstands⟩ := exists_divide hX hY hne
      obtain ⟨r', hr', hstands'⟩ := PercentPhrase.exists_ofWhatIs hX hY hne
      refine ⟨r, r', ?_, hphrase hr', fun h => absurd rfl h, fun f hprecision => ?_⟩
      · rw [apply_eq_onValues]
        exact onValues_of_relative hpercent hamount hr
      · apply NumberFormat.formatValue_of_roundTo
        rw [hprecision, hstands.toRat_roundTo hX hY hne, hstands'.toRat_roundTo hX hY hne]
    · obtain ⟨r, r', hr, hr', hvalue⟩ := exists_relative hop hX hY
      refine ⟨r, r', ?_, hphrase hr', fun _ => hvalue, fun f _ => ?_⟩
      · rw [apply_eq_onValues]
        exact onValues_of_relative hpercent hamount hr
      · apply NumberFormat.formatValue_of_roundTo
        exact toRat_roundTo_congr hvalue
  · intro hplain op hop
    rw [apply_eq_onValues]
    exact onValues_mixed hop hpercent hplain

/-- One by three per cent: the last places differ, and four places do not show it. -/
theorem apply_phrase_thirds :
    let X : Quantity := ⟨.ofInt 3, .percent⟩
    let Y : Quantity := ⟨.one, .unitless⟩
    ∃ r r' : Decimal,
      (BinaryOperation.arithmetic divide).apply Standard.units (.number Y) (.number X) =
          .ok (.plain r) ∧
        (BinaryOperation.percent .ofWhatIs).apply Standard.units (.number X) (.number Y) =
          .ok (.plain r') ∧
        r.sameNumber r' = false ∧
        NumberFormat.formatValue {} (.plain r) = NumberFormat.formatValue {} (.plain r') ∧
        (BinaryOperation.arithmetic add).apply Standard.units (.number X) (.number Y) =
          .error (.mixesPercentage "+") := by
  have hX : (Decimal.ofInt 3).toRat = 3 := by norm_num [toRat, ofInt]
  have hY : Decimal.one.toRat = 1 := by norm_num [toRat, one, ofInt]
  obtain ⟨hvalues, hmixed⟩ := apply_phrase Standard.units (X := ⟨.ofInt 3, .percent⟩)
    (Y := ⟨.one, .unitless⟩) (by decide) (by decide)
  obtain ⟨r, r', hr, hr', -, hshown⟩ := hvalues
    ⟨⟨30000, by rw [hX]; norm_num⟩, by rw [hX]; norm_num⟩
    ⟨⟨10000, by rw [hY]; norm_num⟩, by rw [hY]; norm_num⟩ divide
    (fun _ => by rw [hX]; norm_num)
  have hdifferent : r.sameNumber r' = false := by
    have hdivide : divide.onValues (.number ⟨.one, .unitless⟩) (.number ⟨.ofInt 3, .percent⟩) =
        .ok (.plain (.ofScaled 33333333333333333333333333333 27)) := by decide +kernel
    have hwhatIs : PercentPhrase.ofWhatIs.onValues (.number ⟨.ofInt 3, .percent⟩)
        (.number ⟨.one, .unitless⟩) = .ok (.plain (.ofScaled 33333333333333333333333333330 27)) := by
      decide +kernel
    cases hdivide.symm.trans hr
    cases hwhatIs.symm.trans hr'
    decide
  exact ⟨r, r', hr, hr', hdifferent, hshown {} rfl, hmixed (by decide) add rfl⟩

end Arithmetic

end LineCalc
