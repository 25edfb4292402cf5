import LineCalc.Proofs.Selection
import Mathlib.Data.List.TakeWhile

/-!
# Whole amounts in the unit that suits them

A whole amount is shown in whole units. The choice of a unit looks at rounded candidates only, and
yet it climbs as far as the units of the group go into the amount without remainder: what a step to
the next unit leaves over shows within the places of the display, however large the amount is.

* **`MeasureUnit.measures`**: the unit goes into the amount without remainder.
* **`ShowsRemainder`**: what a step leaves over shows within the places of the display.
* **`Quantity.exists_climb`**: the climb goes on as long as the units measure the amount.
* **`Standard.select_whole`**: this for the standard groups and the places of the display.
-/

namespace LineCalc

open Decimal

/-- Whether a unit goes into an amount without remainder. -/
def MeasureUnit.measures (u : MeasureUnit) (amount : ℚ) : Bool :=
  (amount / u.multiplier.toRat).den == 1

/--
A number of units that is not whole after a step to a larger unit is off by a unit of some place,
and there are digits for that place: no more than the larger unit has zeros.
-/
def ShowsRemainder (precision : Nat) (u v : MeasureUnit) : Prop :=
  ∃ room ≤ min precision maxScale,
    (v.multiplier.toRat / u.multiplier.toRat).num ≤ (10 : ℤ) ^ room ∧
      (10 : ℚ) ^ room ≤ v.multiplier.toRat

instance (precision : Nat) : DecidableRel (ShowsRemainder precision) :=
  fun u v => inferInstanceAs (Decidable (∃ room ≤ min precision maxScale,
    (v.multiplier.toRat / u.multiplier.toRat).num ≤ (10 : ℤ) ^ room ∧
      (10 : ℚ) ^ room ≤ v.multiplier.toRat))

namespace MeasureUnit

variable {u : MeasureUnit} {amount : ℚ}

theorem measures_iff_hasPlaces :
    u.measures amount = true ↔ HasPlaces 0 (amount / u.multiplier.toRat) := by
  rw [measures, beq_iff_eq, HasPlaces, pow_zero, mul_one]
  constructor
  · intro h
    exact ⟨_, (Rat.coe_int_num_of_den_eq_one h).symm⟩
  · rintro ⟨k, hk⟩
    rw [hk, Rat.den_intCast]

theorem measures_iff (hu : 0 < u.multiplier.toRat) :
    u.measures amount = true ↔ ∃ k : ℤ, amount = k * u.multiplier.toRat := by
  rw [measures_iff_hasPlaces, HasPlaces]
  simp only [pow_zero, mul_one, div_eq_iff hu.ne']

end MeasureUnit

namespace Quantity

variable {q best r : Quantity} {u : MeasureUnit} {coarser : List MeasureUnit} {precision : Nat} {m : ℤ}

/-- A whole amount in range leaves as many places in a unit as the unit has zeros. -/
theorem not_overflows_exactIn (hunitless : q.unit.isUnitless = false) (hwhole : q.amount = m)
    (hm : m.natAbs < mantissaBound) {room : Nat} (hroom : (10 : ℚ) ^ room ≤ u.multiplier.toRat)
    (mode : Rounding) : ¬ Overflows mode (q.exactIn u) room := by
  have hu : 0 < u.multiplier.toRat := (ten_pow_pos room).trans_le hroom
  refine not_overflows_of_le hm ?_
  rw [exactIn_eq hunitless, hwhole, abs_mul_pow, abs_div, abs_of_pos hu,
    div_mul_eq_mul_div, div_le_iff₀ hu, ← Int.cast_abs, Int.abs_eq_natAbs, Int.cast_natCast]
  exact mul_le_mul_of_nonneg_left hroom (Nat.cast_nonneg _)

theorem decimalPlaces_eq_zero_iff {value : Decimal} :
    decimalPlaces value precision = 0 ↔ HasPlaces 0 (value.roundTo precision .halfAway).toRat := by
  rw [← scale_normalize_le_iff, Nat.le_zero, decimalPlaces]

theorem decimalPlaces_of_whole {value : Decimal} (h : HasPlaces 0 value.toRat) :
    decimalPlaces value precision = 0 := by
  rw [decimalPlaces_eq_zero_iff, toRat_roundTo_of_hasPlaces (h.mono (Nat.zero_le _))]
  exact h

/-- A whole amount converts exactly into a unit that measures it. -/
theorem toRat_of_measures (hscale : IsScale [q.unit, u]) (hunitless : q.unit.isUnitless = false)
    (hamount : ∃ a : Decimal, a.toRat = q.amount) (hwhole : q.amount = m)
    (hm : m.natAbs < mantissaBound) (hu : (1 : ℚ) ≤ u.multiplier.toRat)
    (hmeasures : u.measures q.amount = true) (hr : q.convertTo u = .ok r) :
    r.unit = u ∧ r.value.toRat = q.amount / u.multiplier.toRat := by
  obtain ⟨hunit, mode, d, hnearest, hvalue⟩ := of_convertTo_eq_ok hscale hamount hr
  have hgrid : HasPlaces 0 (q.exactIn u) := by
    rw [exactIn_eq hunitless]
    exact MeasureUnit.measures_iff_hasPlaces.1 hmeasures
  have hsize : (10 : ℚ) ^ 0 ≤ u.multiplier.toRat := by rwa [pow_zero]
  have hexact := map_toRat_nearest?_of_fits (Nat.zero_le _) hgrid
    (not_overflows_exactIn hunitless hwhole hm hsize mode)
  rw [hnearest, exactIn_eq hunitless] at hexact
  exact ⟨hunit, hvalue.symm.trans (Option.some.inj hexact)⟩

/-- A candidate that shows no places is one that measures the amount. -/
theorem measures_of_decimalPlaces (hscale : IsScale [q.unit, best.unit, u])
    (hunitless : q.unit.isUnitless = false) (hamount : ∃ a : Decimal, a.toRat = q.amount)
    (hwhole : q.amount = m) (hm : m.natAbs < mantissaBound)
    (hstep : ShowsRemainder precision best.unit u)
    (hbest : best.value.toRat = q.amount / best.unit.multiplier.toRat)
    (hmeasures : best.unit.measures q.amount = true) (hr : q.convertTo u = .ok r)
    (hplaces : decimalPlaces r.value precision ≤ decimalPlaces best.value precision) :
    u.measures q.amount = true := by
  obtain ⟨room, hroom, hratio, hsize⟩ := hstep
  have hgrid : HasPlaces 0 best.value.toRat := hbest ▸ MeasureUnit.measures_iff_hasPlaces.1 hmeasures
  have hfits : ∀ mode s, 0 ≤ s → s ≤ room → ¬ Overflows mode (q.exactIn u) s := by
    intro mode s _ hs
    refine not_overflows_exactIn hunitless hwhole hm (le_trans ?_ hsize) mode
    exact pow_le_pow_right₀ (by norm_num) hs
  obtain ⟨hexact, hwholeIn⟩ := exact_of_decimalPlaces_le hscale hamount (by simpa using hratio)
    (Nat.zero_le _) hroom hfits (hbest.trans (exactIn_eq hunitless).symm) hgrid hr hplaces
  rw [hexact, exactIn_eq hunitless] at hwholeIn
  exact MeasureUnit.measures_iff_hasPlaces.2 hwholeIn

/--
The climb goes on exactly as long as the units measure the amount, and what it ends with is exact.
-/
theorem exists_climb (hscale : IsScale (q.unit :: best.unit :: coarser))
    (hunitless : q.unit.isUnitless = false) (hamount : ∃ a : Decimal, a.toRat = q.amount)
    (hwhole : q.amount = m) (hm : m.natAbs < mantissaBound)
    (hsteps : (best.unit :: coarser).IsChain (ShowsRemainder precision))
    (hconverts : ∀ u ∈ coarser, ∃ r, q.convertTo u = .ok r)
    (hbest : best.value.toRat = q.amount / best.unit.multiplier.toRat)
    (hmeasures : best.unit.measures q.amount = true) :
    ∃ r, q.climb precision best coarser = .ok r ∧
      (best.unit :: coarser.takeWhile (·.measures q.amount)).getLast? = some r.unit ∧
      r.value.toRat = q.amount / r.unit.multiplier.toRat ∧ r.unit.measures q.amount = true := by
  -- induction on the units that are left: the best one so far is exact and measures the amount
  induction coarser generalizing best with
  | nil => exact ⟨best, rfl, rfl, hbest, hmeasures⟩
  | cons u coarser ih =>
    have hhere : IsScale [q.unit, best.unit, u] := hscale.mono (by simp +contextual)
    obtain ⟨hstep, hlater⟩ := List.isChain_cons_cons.1 hsteps
    obtain ⟨candidate, hcandidate⟩ := hconverts u (List.mem_cons_self ..)
    rw [climb, hcandidate]
    dsimp only
    by_cases hu : u.measures q.amount = true
    · have hsize : (1 : ℚ) ≤ u.multiplier.toRat := by
        obtain ⟨room, -, -, hroom⟩ := hstep
        exact (one_le_pow₀ (by norm_num)).trans hroom
      obtain ⟨rfl, hvalue⟩ := toRat_of_measures (hhere.mono (by simp +contextual)) hunitless hamount
        hwhole hm hsize hu hcandidate
      have hplaces : decimalPlaces candidate.value precision = 0 :=
        decimalPlaces_of_whole (hvalue ▸ MeasureUnit.measures_iff_hasPlaces.1 hu)
      rw [if_neg (by omega), List.takeWhile_cons, if_pos hu, List.getLast?_cons_cons]
      exact ih (hscale.mono (by simp +contextual)) hlater
        (fun v hv => hconverts v (List.mem_cons_of_mem _ hv)) hvalue hu
    · rw [if_pos, List.takeWhile_cons, if_neg hu]
      · exact ⟨best, rfl, rfl, hbest, hmeasures⟩
      · by_contra hle
        exact hu (measures_of_decimalPlaces hhere hunitless hamount hwhole hm hstep hbest hmeasures
          hcandidate (Nat.not_lt.1 hle))

/-- A whole amount that is multiplied out in a conversion is in the range of decimals. -/
theorem natAbs_lt_of_convertTo (hfamily : q.unit.family = u.family)
    (hunitless : q.unit.isUnitless = false) (hother : q.unit.sameAs u = false)
    (hsize : q.unit.multiplier.sameNumber u.multiplier = false) (hwhole : q.amount = m)
    (hr : q.convertTo u = .ok r) : m.natAbs < mantissaBound := by
  have hconvertible : q.unit.isConvertibleTo u = true := beq_iff_eq.2 hfamily
  rw [convertTo, if_neg (by simp [hother]), if_neg (by simp [hunitless]), convertDecimal,
    if_pos hconvertible, if_neg (by simp [hsize])] at hr
  by_contra hlarge
  have hproduct : q.value.mul? q.unit.multiplier = none := by
    rw [← Option.map_eq_none_iff (f := toRat), map_toRat_mul?, ← amount, hwhole, nearest?_eq_none,
      Option.map_none]
    rw [← Int.cast_abs, Int.abs_eq_natAbs]
    exact_mod_cast Nat.not_lt.1 hlarge
  rw [hproduct] at hr
  cases hr

theorem exists_decimal (hm : m.natAbs < mantissaBound) : ∃ a : Decimal, a.toRat = m :=
  ⟨.ofScaled m 0 hm (Nat.zero_le _), by simp [toRat, ofScaled]⟩

/-- From the smallest unit of a scale, what is chosen is the last unit up to which all measure. -/
theorem exists_selectFrom {base : MeasureUnit} (hscale : IsScale (q.unit :: base :: coarser))
    (hunitless : q.unit.isUnitless = false) (hwhole : q.amount = m) (hm : m.natAbs < mantissaBound)
    (hbase : (1 : ℚ) ≤ base.multiplier.toRat) (hmeasures : base.measures q.amount = true)
    (hsteps : (base :: coarser).IsChain (ShowsRemainder precision))
    (hconverts : ∀ u ∈ base :: coarser, ∃ r, q.convertTo u = .ok r) :
    ∃ r, q.selectFrom (base :: coarser) precision = .ok r ∧
      ((base :: coarser).takeWhile (·.measures q.amount)).getLast? = some r.unit ∧
      r.value.toRat = q.amount / r.unit.multiplier.toRat ∧ r.unit.measures q.amount = true := by
  have hamount : ∃ a : Decimal, a.toRat = q.amount := hwhole ▸ exists_decimal hm
  obtain ⟨hfirst, hothers⟩ := List.forall_mem_cons.1 hconverts
  obtain ⟨best, hbest⟩ := hfirst
  obtain ⟨rfl, hvalue⟩ := toRat_of_measures (hscale.mono (by simp +contextual)) hunitless hamount
    hwhole hm hbase hmeasures hbest
  rw [selectFrom, hbest, List.takeWhile_cons, if_pos hmeasures]
  exact exists_climb hscale hunitless hamount hwhole hm hsteps hothers hvalue hmeasures

end Quantity

/-! ## The standard units -/

namespace Standard

open Quantity

theorem showsRemainder_displayGroups : ∀ group ∈ displayGroups, group.IsChain (ShowsRemainder 4) := by
  decide +kernel

theorem base_displayGroups : ∀ group ∈ displayGroups, ∀ base ∈ group.head?,
    base.multiplier.scale = 0 ∧ (1 : ℚ) ≤ base.multiplier.toRat := by
  decide +kernel

theorem sizes_displayGroups : ∀ group ∈ displayGroups, ∀ u ∈ group, ∃ v ∈ group,
    u.sameAs v = false ∧ u.multiplier.sameNumber v.multiplier = false := by
  decide +kernel

/--
Whatever unit of a standard group a quantity is in, if its amount is a whole number of the smallest
one and it converts into each of them, what is chosen with four places is the last unit up to which
all measure the amount, and the exact whole number of it. Nothing at all is shown in the largest one.
-/
theorem select_whole {group : List MeasureUnit} {q : Quantity} {n : ℤ} (hgroup : group ∈ units.groups)
    (hunit : q.unit ∈ group) (hwhole : ∃ base ∈ group.head?, q.amount = n * base.multiplier.toRat)
    (hconverts : ∀ u ∈ group, ∃ r, q.convertTo u = .ok r) :
    ∃ (r : Quantity) (k : ℤ), units.select q 4 = .ok r ∧ q.selectFrom group 4 = .ok r ∧
      (group.takeWhile (·.measures q.amount)).getLast? = some r.unit ∧
      r.value.toRat = k ∧ q.amount = k * r.unit.multiplier.toRat ∧
      (n = 0 → group.getLast? = some r.unit) := by
  rw [registered_units.1] at hgroup
  obtain ⟨hscale, hunits⟩ := isScale_displayGroups group hgroup
  have hunitless := (hunits _ hunit).1
  obtain ⟨base, hhead, hamount⟩ := hwhole
  obtain ⟨coarser, rfl⟩ := List.head?_eq_some_iff.1 hhead
  obtain ⟨hscaleZero, hone⟩ := base_displayGroups _ hgroup base hhead
  have hbase : base.multiplier.toRat = base.multiplier.mantissa := by
    rw [toRat, hscaleZero, pow_zero, div_one]
  have hinteger : q.amount = ((n * base.multiplier.mantissa : ℤ) : ℚ) := by
    rw [hamount, hbase, Int.cast_mul]
  -- a conversion into a unit of another size goes through the amount
  obtain ⟨v, hv, hother, hsize⟩ := sizes_displayGroups _ hgroup _ hunit
  obtain ⟨converted, hconvert⟩ := hconverts v hv
  have hrange := natAbs_lt_of_convertTo (hscale.family _ hunit _ hv) hunitless hother hsize hinteger
    hconvert
  have hmeasures : base.measures q.amount = true :=
    (MeasureUnit.measures_iff (hscale.pos base (List.mem_cons_self ..))).2 ⟨n, hamount⟩
  obtain ⟨r, hselect, hlast, hvalue, hwhole⟩ := exists_selectFrom
    (hscale.mono (by simp [List.mem_cons.1 hunit])) hunitless hinteger hrange hone hmeasures
    (showsRemainder_displayGroups _ hgroup) hconverts
  have hmem : r.unit ∈ base :: coarser :=
    (List.takeWhile_sublist _).subset (List.mem_of_getLast? hlast)
  obtain ⟨k, hk⟩ := (MeasureUnit.measures_iff (hscale.pos _ hmem)).1 hwhole
  refine ⟨r, k, (select_units hgroup hunit 4).trans hselect, hselect, hlast, ?_, hk, ?_⟩
  · rw [hvalue, hk, mul_div_cancel_right₀ _ (hscale.pos _ hmem).ne']
  · rintro rfl
    have hzero : ∀ u ∈ base :: coarser, u.measures q.amount = true := by
      intro u hu
      refine (MeasureUnit.measures_iff (hscale.pos u hu)).2 ⟨0, ?_⟩
      rw [hamount, Int.cast_zero, zero_mul, zero_mul]
    rw [List.takeWhile_eq_self_iff.2 hzero] at hlast
    exact hlast

/-- 120 s are a whole number of milliseconds, and are shown as two minutes. -/
theorem select_whole_minutes :
    (⟨.ofInt 120, durations[2]⟩ : Quantity).amount = (120000 : ℤ) * durations[1].multiplier.toRat ∧
      (∀ u ∈ (durations.drop 1).take 5, ∃ r,
        (⟨.ofInt 120, durations[2]⟩ : Quantity).convertTo u = .ok r) ∧
      ∃ r, units.select ⟨.ofInt 120, durations[2]⟩ 4 = .ok r ∧
        r.value.toRat = (2 : ℤ) ∧ r.unit = durations[3] := by
  have hwhole : (⟨.ofInt 120, durations[2]⟩ : Quantity).amount =
      (120000 : ℤ) * durations[1].multiplier.toRat := by decide +kernel
  have hconverts : ∀ u ∈ (durations.drop 1).take 5, ∃ r,
      (⟨.ofInt 120, durations[2]⟩ : Quantity).convertTo u = .ok r := by
    have hsome : ∀ u ∈ (durations.drop 1).take 5,
        ((⟨.ofInt 120, durations[2]⟩ : Quantity).convertTo u).toOption.isSome = true := by
      decide +kernel
    intro u hu
    obtain ⟨r, hr⟩ := Option.isSome_iff_exists.1 (hsome u hu)
    exact ⟨r, toOption_eq_some.1 hr⟩
  have hlast : (((durations.drop 1).take 5).takeWhile
      (·.measures (⟨.ofInt 120, durations[2]⟩ : Quantity).amount)).getLast? =
        some durations[3] := by
    decide +kernel
  have htwo : (⟨.ofInt 120, durations[2]⟩ : Quantity).amount =
      (2 : ℤ) * durations[3].multiplier.toRat := by decide +kernel
  have hpos : durations[3].multiplier.toRat ≠ 0 := by decide +kernel
  have hgroup : (durations.drop 1).take 5 ∈ units.groups := by
    rw [registered_units.1]
    decide +kernel
  refine ⟨hwhole, hconverts, ?_⟩
  obtain ⟨r, k, hselect, -, hunit, hvalue, hamount, -⟩ := select_whole hgroup (by decide +kernel)
    ⟨_, by rfl, hwhole⟩ hconverts
  rw [hlast, Option.some.injEq] at hunit
  rw [← hunit, htwo] at hamount
  exact ⟨r, hselect, hvalue.trans (mul_right_cancel₀ hpos hamount).symm, hunit.symm⟩

end Standard

end LineCalc
