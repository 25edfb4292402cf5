import LineCalc.Measure.Registry
import LineCalc.Proofs.Decimal.Nearest
import LineCalc.Proofs.Vocabulary
import Mathlib.Algebra.Order.Ring.Abs

/-!
# Choosing a unit for display

The unit that shows a quantity best is looked for among candidates that are rounded, to the digits
of a decimal and again to the places of the display. A candidate whose digits are rounded away looks
as if it needed few places, and so the choice can lose them: 12.3456 mm are shown as 0 km. What is
shown is exact as long as the steps from unit to unit are too small for that.

* **`Quantity.exactIn`**: what a quantity comes to in a unit, before any rounding.
* **`Quantity.exactIn_selectFrom`**: the choice is exact when the smallest unit leaves enough places
  for every step to the next unit.
* **`Quantity.selectFrom_selectFrom`**: a choice that is exact is made again from its result.
-/

namespace LineCalc

open Decimal

/-! ## Units of one scale -/

/-- Units of one family, of positive size, and each in one form only. -/
structure IsScale (units : List MeasureUnit) : Prop where
  family : ∀ u ∈ units, ∀ v ∈ units, u.family = v.family
  distinct : ∀ u ∈ units, ∀ v ∈ units, u.sameAs v = true → u = v
  pos : ∀ u ∈ units, 0 < u.multiplier.toRat

theorem IsScale.mono {units fewer : List MeasureUnit} (h : IsScale units)
    (hsub : ∀ u ∈ fewer, u ∈ units) : IsScale fewer where
  family u hu v hv := h.family u (hsub u hu) v (hsub v hv)
  distinct u hu v hv := h.distinct u (hsub u hu) v (hsub v hv)
  pos u hu := h.pos u (hsub u hu)

instance (units : List MeasureUnit) : Decidable (IsScale units) :=
  decidable_of_iff
    ((∀ u ∈ units, ∀ v ∈ units, u.family = v.family) ∧
      (∀ u ∈ units, ∀ v ∈ units, u.sameAs v = true → u = v) ∧
      ∀ u ∈ units, 0 < u.multiplier.toRat)
    ⟨fun ⟨family, distinct, pos⟩ => ⟨family, distinct, pos⟩,
      fun h => ⟨h.family, h.distinct, h.pos⟩⟩

namespace Quantity

/-- What a quantity comes to in the unit of size one. -/
def amount (q : Quantity) : ℚ :=
  q.value.toRat * q.unit.multiplier.toRat

/-- What a quantity comes to in a unit, before any rounding; a plain number takes the unit as it is. -/
def exactIn (q : Quantity) (u : MeasureUnit) : ℚ :=
  if q.unit.isUnitless then q.value.toRat else q.amount / u.multiplier.toRat

/-- The number and the unit of a quantity, however the number is written. -/
def denoted (q : Quantity) : ℚ × MeasureUnit :=
  (q.value.toRat, q.unit)

/-- Shown to a precision, the quantity is what it is. -/
def ShownExactly (q : Quantity) (precision : Nat) : Prop :=
  (q.value.roundTo precision .halfAway).sameNumber q.value = true

variable {q best r : Quantity} {u v : MeasureUnit} {group coarser : List MeasureUnit}
  {precision places : Nat}

theorem exactIn_eq (hunitless : q.unit.isUnitless = false) :
    q.exactIn u = q.amount / u.multiplier.toRat := by
  rw [exactIn, hunitless, if_neg Bool.false_ne_true]

theorem shownExactly_iff : q.ShownExactly precision ↔ HasPlaces precision q.value.toRat := by
  rw [ShownExactly, sameNumber_iff_toRat]
  constructor
  · intro h
    rw [← h]
    exact hasPlaces_toRat_roundTo q.value precision .halfAway
  · exact toRat_roundTo_of_hasPlaces

/-! ## Conversion -/

/-- A number in a unit, brought into the range of decimals. -/
def inRange (mode : Rounding) (x : ℚ) (u : MeasureUnit) : Except UnitError (ℚ × MeasureUnit) :=
  match (nearest? mode x maxScale).map toRat with
  | some y => .ok (y, u)
  | none => .error .overflow

theorem inRange_toRat (mode : Rounding) (d : Decimal) (u : MeasureUnit) :
    inRange mode d.toRat u = .ok (d.toRat, u) := by
  rw [inRange, map_toRat_nearest?_toRat]

/--
A quantity whose amount is a decimal converts into what it comes to exactly, brought into range. A
half goes to the even neighbour if the size of the unit has at most 64 bits.
-/
theorem denoted_convertTo (hscale : IsScale [q.unit, u])
    (hamount : ∃ a : Decimal, a.toRat = q.amount) :
    ∃ mode, (u.multiplier.mantissa.natAbs < wordBound → mode = .halfEven) ∧
      (q.convertTo u).map denoted = inRange mode (q.exactIn u) u := by
  have hunit : 0 < q.unit.multiplier.toRat := hscale.pos _ (by simp)
  have hpos : 0 < u.multiplier.toRat := hscale.pos _ (by simp)
  have hfamily : q.unit.family = u.family := hscale.family _ (by simp) _ (by simp)
  have hkept : q.amount / q.unit.multiplier.toRat = q.value.toRat :=
    mul_div_cancel_right₀ _ hunit.ne'
  unfold convertTo exactIn
  split
  · -- the unit of the quantity itself
    rename_i hsame
    obtain rfl : q.unit = u := hscale.distinct _ (by simp) _ (by simp) hsame
    refine ⟨.halfEven, fun _ => rfl, ?_⟩
    rw [hkept, ite_self, inRange_toRat]
    rfl
  split
  · exact ⟨.halfEven, fun _ => rfl, (inRange_toRat _ _ _).symm⟩
  -- a conversion: the product is exact, and the quotient is brought into range
  have hconvertible : q.unit.isConvertibleTo u = true := beq_iff_eq.2 hfamily
  unfold convertDecimal
  rw [if_pos hconvertible]
  split
  · rename_i hsize
    refine ⟨.halfEven, fun _ => rfl, ?_⟩
    rw [← sameNumber_iff_toRat.1 hsize, hkept, inRange_toRat]
    rfl
  · obtain ⟨a, ha⟩ := hamount
    have hproduct : (q.value.mul? q.unit.multiplier).map toRat = some q.amount := by
      rw [map_toRat_mul?, ← amount, ← ha, map_toRat_nearest?_toRat]
    obtain ⟨product, hmul, hvalue⟩ := Option.map_eq_some_iff.1 hproduct
    obtain ⟨mode, hmode, hdiv⟩ := map_toRat_div? product hpos.ne'
    refine ⟨mode, hmode, ?_⟩
    rw [hmul, Option.bind_some, inRange, ← hvalue, ← hdiv]
    cases product.div? u.multiplier <;> rfl

theorem convertTo_unit (q : Quantity) : q.convertTo q.unit = .ok q := by
  rw [convertTo, if_pos (MeasureUnit.sameAs_iff.2 ⟨rfl, rfl⟩)]

theorem of_convertTo_eq_ok (hscale : IsScale [q.unit, u])
    (hamount : ∃ a : Decimal, a.toRat = q.amount) (h : q.convertTo u = .ok r) :
    r.unit = u ∧
      ∃ mode d, nearest? mode (q.exactIn u) maxScale = some d ∧ d.toRat = r.value.toRat := by
  obtain ⟨mode, -, hdenoted⟩ := denoted_convertTo hscale hamount
  rw [h, inRange] at hdenoted
  cases hnearest : nearest? mode (q.exactIn u) maxScale with
  | none =>
    rw [hnearest] at hdenoted
    cases hdenoted
  | some d =>
    rw [hnearest] at hdenoted
    have heq : (r.value.toRat, r.unit) = (d.toRat, u) := Except.ok.inj hdenoted
    exact ⟨congrArg Prod.snd heq, mode, d, hnearest, (congrArg Prod.fst heq).symm⟩

/-! ## Choices that stay exact -/

/-- From a grid, a number that lies on a grid finer by a factor keeps a distance. -/
theorem inv_pow_le_abs_sub {x z : ℚ} {n : Int} {room : Nat} (hn : 0 < n)
    (hx : HasPlaces places (x * n)) (hz : HasPlaces places z)
    (hsmall : n * 10 ^ places ≤ (10 : ℤ) ^ room) (hne : x ≠ z) : 1 / 10 ^ room ≤ |x - z| := by
  obtain ⟨k, hk⟩ := hx
  obtain ⟨m, hm⟩ := hz
  have hn' : (0 : ℚ) < n := by exact_mod_cast hn
  have hpow := ten_pow_pos places
  have hsmall' : (n : ℚ) * 10 ^ places ≤ 10 ^ room := by exact_mod_cast hsmall
  have hdiff : (x - z) * (n * 10 ^ places) = ((k - m * n : Int) : ℚ) := by
    push_cast
    rw [← hk, ← hm]
    ring
  have hnonzero : k - m * n ≠ 0 := by
    intro hzero
    rw [hzero, Int.cast_zero, mul_eq_zero, or_iff_left (mul_pos hn' hpow).ne', sub_eq_zero] at hdiff
    exact hne hdiff
  have hone : (1 : ℚ) ≤ |x - z| * (n * 10 ^ places) := by
    rw [← abs_of_pos (mul_pos hn' hpow), ← abs_mul, hdiff]
    exact_mod_cast Int.one_le_abs hnonzero
  rw [div_le_iff₀ (ten_pow_pos room)]
  exact hone.trans (mul_le_mul_of_nonneg_left hsmall' (abs_nonneg _))

/--
A number that keeps a distance from a coarse grid is not moved onto it, neither by the rule that
brings it into range nor by the places of the display.
-/
theorem hasPlaces_of_roundTo {mode : Rounding} {x : ℚ} {room : Nat} {c d : Decimal}
    (hroom : room ≤ precision) (hplaces : places ≤ room)
    (hnearest : nearest? mode x maxScale = some d) (hvalue : d.toRat = c.toRat)
    (hscale : room ≤ d.scale)
    (hgap : ∀ z, HasPlaces places z → x ≠ z → 1 / 10 ^ room ≤ |x - z|)
    (hrounded : HasPlaces places (c.roundTo precision .halfAway).toRat) : HasPlaces places x := by
  set z := (c.roundTo precision .halfAway).toRat
  by_contra hx
  have hne : x ≠ z := fun heq => hx (heq ▸ hrounded)
  have hstep : HasPlaces room (1 / 10 ^ room) :=
    ⟨1, by rw [one_div_mul_cancel (ten_pow_pos room).ne', Int.cast_one]⟩
  have hpositive : (0 : ℚ) < 1 / 10 ^ room := one_div_pos.2 (ten_pow_pos room)
  have hfine : HasPlaces room z := hrounded.mono hplaces
  rcases le_abs.1 (hgap z hrounded hne) with habove | hbelow
  · -- the next number of the finer grid above `z` is kept by both roundings
    have hgrid : HasPlaces room (z + 1 / 10 ^ room) := hfine.add hstep
    have hle : z + 1 / 10 ^ room ≤ c.toRat :=
      hvalue ▸ le_toRat_of_nearest? le_rfl hnearest (hgrid.mono hscale) (by linarith)
    have hmoved : z + 1 / 10 ^ room ≤ z := le_toRat_roundTo (hgrid.mono hroom) hle
    linarith
  · have hgrid : HasPlaces room (z - 1 / 10 ^ room) := hfine.sub hstep
    have hle : c.toRat ≤ z - 1 / 10 ^ room :=
      hvalue ▸ toRat_le_of_nearest? le_rfl hnearest (hgrid.mono hscale) (by linarith)
    have hmoved : z ≤ z - 1 / 10 ^ room := toRat_roundTo_le (hgrid.mono hroom) hle
    linarith

/-- What a quantity comes to in a larger unit is no larger. -/
theorem abs_exactIn_le (q : Quantity) (hu : 0 < u.multiplier.toRat)
    (hle : u.multiplier.toRat ≤ v.multiplier.toRat) : |q.exactIn v| ≤ |q.exactIn u| := by
  have hv : 0 < v.multiplier.toRat := hu.trans_le hle
  unfold exactIn
  split
  · exact le_rfl
  · rw [abs_div, abs_div, abs_of_pos hu, abs_of_pos hv]
    exact div_le_div_of_nonneg_left (abs_nonneg _) hu hle

/-- In another unit, a number of some places is on a grid that is finer by the ratio of the sizes. -/
theorem hasPlaces_exactIn_mul_num (hu : 0 < u.multiplier.toRat) (hv : 0 < v.multiplier.toRat)
    (h : HasPlaces places (q.exactIn u)) :
    HasPlaces places (q.exactIn v * (v.multiplier.toRat / u.multiplier.toRat).num) := by
  obtain ⟨n, hn⟩ := h
  unfold exactIn at hn ⊢
  split at hn
  · rename_i hplain
    rw [if_pos hplain]
    refine ⟨n * (v.multiplier.toRat / u.multiplier.toRat).num, ?_⟩
    push_cast
    rw [← hn]
    ring
  · rename_i hplain
    rw [if_neg hplain]
    refine ⟨n * (v.multiplier.toRat / u.multiplier.toRat).den, ?_⟩
    have hratio := Rat.mul_den_eq_num (v.multiplier.toRat / u.multiplier.toRat)
    push_cast
    rw [← hn, ← hratio]
    field_simp

/--
The step to the next unit keeps apart the numbers of so many places: a number that the step brings
off their grid stays off it by a unit of the last place of the display.
-/
def SmallStep (precision places : Nat) (u v : MeasureUnit) : Prop :=
  (v.multiplier.toRat / u.multiplier.toRat).num * 10 ^ places ≤ (10 : ℤ) ^ min precision maxScale

instance (precision places : Nat) : DecidableRel (SmallStep precision places) :=
  fun u v => inferInstanceAs (Decidable ((v.multiplier.toRat / u.multiplier.toRat).num *
    10 ^ places ≤ (10 : ℤ) ^ min precision maxScale))

theorem not_overflows_of_abs_le {mode : Rounding} {x y : ℚ} {room : Nat} (hplaces : places ≤ room)
    (hy : HasPlaces places y) (hroom : |y| * 10 ^ room < mantissaBound) (hle : |x| ≤ |y|) :
    ¬ Overflows mode x places := by
  obtain ⟨n, hn⟩ := hy
  have hpow := ten_pow_pos places
  have hscaled : |y| * 10 ^ places = (n.natAbs : ℚ) := by
    rw [← abs_mul_pow, hn, ← Int.cast_abs, Int.abs_eq_natAbs, Int.cast_natCast]
  have hbound : (n.natAbs : ℚ) < mantissaBound := by
    rw [← hscaled]
    refine lt_of_le_of_lt (mul_le_mul_of_nonneg_left ?_ (abs_nonneg y)) hroom
    exact pow_le_pow_right₀ (by norm_num) hplaces
  refine not_overflows_of_le (n := n.natAbs) (by exact_mod_cast hbound) ?_
  rw [abs_mul_pow, ← hscaled]
  exact mul_le_mul_of_nonneg_right hle hpow.le

/--
A candidate that needs no more places than an exact one before it is exact as well, if the step to it
keeps numbers of so many places apart by a unit of a place that the candidate has room for.
-/
theorem exact_of_decimalPlaces_le {room : Nat} (hscale : IsScale [q.unit, best.unit, u])
    (hamount : ∃ a : Decimal, a.toRat = q.amount)
    (hstep : (u.multiplier.toRat / best.unit.multiplier.toRat).num * 10 ^ places ≤ (10 : ℤ) ^ room)
    (hplaces : places ≤ room) (hroom : room ≤ min precision maxScale)
    (hfits : ∀ mode s, places ≤ s → s ≤ room → ¬ Overflows mode (q.exactIn u) s)
    (hexact : best.value.toRat = q.exactIn best.unit) (hbest : HasPlaces places best.value.toRat)
    (hcandidate : q.convertTo u = .ok r)
    (hle : decimalPlaces r.value precision ≤ decimalPlaces best.value precision) :
    r.value.toRat = q.exactIn u ∧ HasPlaces places r.value.toRat := by
  have hunit : 0 < best.unit.multiplier.toRat := hscale.pos _ (by simp)
  have hpos : 0 < u.multiplier.toRat := hscale.pos _ (by simp)
  have hprecision : room ≤ precision := hroom.trans (Nat.min_le_left _ _)
  have hroomLe : room ≤ maxScale := hroom.trans (Nat.min_le_right _ _)
  obtain ⟨-, mode, d, hnearest, hvalue⟩ :=
    of_convertTo_eq_ok (hscale.mono (by simp)) hamount hcandidate
  have hratio : HasPlaces places
      (q.exactIn u * (u.multiplier.toRat / best.unit.multiplier.toRat).num) :=
    hasPlaces_exactIn_mul_num hunit hpos (hexact ▸ hbest)
  -- the candidate shows no more than the places of the best one
  have hshown : HasPlaces places (r.value.roundTo precision .halfAway).toRat := by
    rw [← scale_normalize_le_iff]
    refine hle.trans ?_
    rw [decimalPlaces, scale_normalize_le_iff,
      toRat_roundTo_of_hasPlaces (hbest.mono (hplaces.trans hprecision))]
    exact hbest
  have hpositive : 0 < (u.multiplier.toRat / best.unit.multiplier.toRat).num :=
    Rat.num_pos.2 (div_pos hpos hunit)
  have hgrid : HasPlaces places (q.exactIn u) := by
    refine hasPlaces_of_roundTo hprecision hplaces hnearest hvalue
      (le_scale_of_nearest? hroomLe hnearest (hfits mode room hplaces le_rfl)) ?_ hshown
    exact fun z hz hne => inv_pow_le_abs_sub hpositive hratio hz hstep hne
  have hkept : d.toRat = q.exactIn u := by
    have hmap := map_toRat_nearest?_of_fits (hplaces.trans hroomLe) hgrid
      (hfits mode places le_rfl hplaces)
    rw [hnearest] at hmap
    exact Option.some.inj hmap
  rw [← hvalue, hkept]
  exact ⟨rfl, hgrid⟩

theorem exactIn_climb (hscale : IsScale (q.unit :: best.unit :: coarser))
    (hamount : ∃ a : Decimal, a.toRat = q.amount)
    (hascending : (best.unit :: coarser).IsChain fun u v => u.multiplier.toRat ≤ v.multiplier.toRat)
    (hsteps : (best.unit :: coarser).IsChain fun u v =>
      HasPlaces places (q.exactIn u) → SmallStep precision places u v)
    (hplaces : places ≤ min precision maxScale)
    (hexact : best.value.toRat = q.exactIn best.unit) (hbest : HasPlaces places best.value.toRat)
    (hroom : |best.value.toRat| * 10 ^ min precision maxScale < mantissaBound)
    (hr : q.climb precision best coarser = .ok r) :
    r.value.toRat = q.exactIn r.unit ∧ HasPlaces places r.value.toRat := by
  -- induction on the units that are left: the best one so far is exact and has the places
  induction coarser generalizing best with
  | nil =>
    cases hr
    exact ⟨hexact, hbest⟩
  | cons u coarser ih =>
    have hhere : IsScale [q.unit, best.unit, u] := hscale.mono (by simp +contextual)
    obtain ⟨hlarger, hlater⟩ := List.isChain_cons_cons.1 hascending
    obtain ⟨hstep, hrest⟩ := List.isChain_cons_cons.1 hsteps
    unfold climb at hr
    split at hr
    · cases hr
    rename_i candidate hcandidate
    split at hr
    · cases hr
      exact ⟨hexact, hbest⟩
    rename_i hle
    obtain ⟨hunit, -⟩ := of_convertTo_eq_ok (hhere.mono (by simp)) hamount hcandidate
    have hsmall : SmallStep precision places best.unit u := hstep (hexact ▸ hbest)
    have habs : |q.exactIn u| ≤ |best.value.toRat| := by
      rw [hexact]
      exact q.abs_exactIn_le (hscale.pos _ (by simp)) hlarger
    obtain ⟨hnext, hnextPlaces⟩ := exact_of_decimalPlaces_le hhere hamount hsmall hplaces le_rfl
      (fun _ s hs hsroom => not_overflows_of_abs_le hsroom (hbest.mono hs) hroom habs)
      hexact hbest hcandidate (Nat.not_lt.1 hle)
    subst hunit
    refine ih (hscale.mono (by simp +contextual)) hlater hrest hnext hnextPlaces ?_ hr
    rw [← hnext] at habs
    exact (mul_le_mul_of_nonneg_right habs (ten_pow_pos _).le).trans_lt hroom

/--
The choice of a unit is exact, and shown exactly, for a quantity that the smallest unit shows
exactly, with digits to spare at the precision, if the steps are small for the places it needs there:
each step to the next unit from one that needs no more places.
-/
theorem exactIn_selectFrom {base : MeasureUnit} {b : Quantity}
    (hscale : IsScale (q.unit :: base :: coarser))
    (hascending : (base :: coarser).IsChain fun u v => u.multiplier.toRat ≤ v.multiplier.toRat)
    (hamount : ∃ a : Decimal, a.toRat = q.amount)
    (hbase : q.convertTo base = .ok b) (hexact : b.value.toRat = q.exactIn base)
    (hshown : b.ShownExactly precision)
    (hroom : |b.value.toRat| * 10 ^ min precision maxScale < mantissaBound)
    (hsteps : (base :: coarser).IsChain fun u v =>
      HasPlaces (decimalPlaces b.value precision) (q.exactIn u) →
        SmallStep precision (decimalPlaces b.value precision) u v)
    (hr : q.selectFrom (base :: coarser) precision = .ok r) :
    r.value.toRat = q.exactIn r.unit ∧ r.ShownExactly precision := by
  have hgrid : HasPlaces precision b.value.toRat := shownExactly_iff.1 hshown
  have hplaces : decimalPlaces b.value precision = b.value.normalize.scale :=
    scale_normalize_congr (toRat_roundTo_of_hasPlaces hgrid)
  have hbest : HasPlaces (decimalPlaces b.value precision) b.value.toRat := by
    rw [hplaces]
    exact scale_normalize_le_iff.1 le_rfl
  have hle : decimalPlaces b.value precision ≤ min precision maxScale := by
    rw [hplaces]
    exact Nat.le_min.2 ⟨scale_normalize_le_iff.2 hgrid, b.value.normalize.scale_le⟩
  obtain ⟨hunit, -⟩ := of_convertTo_eq_ok (hscale.mono (by simp +contextual)) hamount hbase
  subst hunit
  simp only [selectFrom, hbase] at hr
  obtain ⟨hvalue, hrPlaces⟩ :=
    exactIn_climb hscale hamount hascending hsteps hle hexact hbest hroom hr
  exact ⟨hvalue, shownExactly_iff.2 (hrPlaces.mono (hle.trans (Nat.min_le_left _ _)))⟩

/-- A hundred inches come to 2540 mm, and are shown as 254 cm. -/
theorem exactIn_selectFrom_inches :
    IsScale (Standard.lengths[4] :: Standard.lengths.take 4) ∧
      ((Standard.lengths.take 4).IsChain fun u v => u.multiplier.toRat ≤ v.multiplier.toRat) ∧
      (⟨.hundred, Standard.lengths[4]⟩ : Quantity).convertTo Standard.lengths[0] =
        .ok ⟨.ofScaled 25400 1, Standard.lengths[0]⟩ ∧
      (Standard.lengths.take 4).IsChain (SmallStep 4 0) ∧
      (⟨.hundred, Standard.lengths[4]⟩ : Quantity).selectFrom (Standard.lengths.take 4) 4 =
        .ok ⟨.ofScaled 2540 1, Standard.lengths[1]⟩ ∧
      (⟨.ofScaled 2540 1, Standard.lengths[1]⟩ : Quantity).value.toRat =
        (⟨.hundred, Standard.lengths[4]⟩ : Quantity).exactIn Standard.lengths[1] ∧
      (⟨.ofScaled 2540 1, Standard.lengths[1]⟩ : Quantity).ShownExactly 4 := by
  have hscale : IsScale (Standard.lengths[4] :: Standard.lengths.take 4) := by decide +kernel
  have hascending : (Standard.lengths.take 4).IsChain fun u v =>
      u.multiplier.toRat ≤ v.multiplier.toRat := by decide +kernel
  have hbase : (⟨.hundred, Standard.lengths[4]⟩ : Quantity).convertTo Standard.lengths[0] =
      .ok ⟨.ofScaled 25400 1, Standard.lengths[0]⟩ := by decide +kernel
  have hsteps : (Standard.lengths.take 4).IsChain (SmallStep 4 0) := by decide +kernel
  have hselect : (⟨.hundred, Standard.lengths[4]⟩ : Quantity).selectFrom
      (Standard.lengths.take 4) 4 = .ok ⟨.ofScaled 2540 1, Standard.lengths[1]⟩ := by decide +kernel
  refine ⟨hscale, hascending, hbase, hsteps, hselect, ?_⟩
  exact exactIn_selectFrom hscale hascending ⟨.ofInt 2540, by decide +kernel⟩ hbase
    (by decide +kernel) (by unfold ShownExactly; decide +kernel) (by decide +kernel)
    (hsteps.imp fun _ _ hsmall _ => hsmall) hselect

/-- Where a step is too large for the places, digits are lost: these millimetres are shown as 0 km. -/
example : (⟨.ofScaled 123456 4, Standard.lengths[0]⟩ : Quantity).selectFrom
    (Standard.lengths.take 4) 4 = .ok ⟨.ofScaled 123456 10, Standard.lengths[3]⟩ := by
  decide +kernel

/-! ## Choices that are made again -/

theorem decimalPlaces_congr {a b : Decimal} (h : a.toRat = b.toRat) :
    decimalPlaces a precision = decimalPlaces b precision :=
  scale_normalize_congr (toRat_roundTo_congr h)

theorem map_eq_map {ε α β : Type} {f : α → β} {x y : Except ε α} (h : x.map f = y.map f) :
    (∃ e, x = .error e ∧ y = .error e) ∨ ∃ a b, x = .ok a ∧ y = .ok b ∧ f a = f b := by
  cases x with
  | error e =>
    cases y with
    | error e' =>
      cases h
      exact .inl ⟨e, rfl, rfl⟩
    | ok b => cases h
  | ok a =>
    cases y with
    | error e => cases h
    | ok b => exact .inr ⟨a, b, rfl, rfl, Except.ok.inj h⟩

/-- Which unit is chosen depends only on what is said of the candidates, if that tells the numbers. -/
theorem climb_congr {β : Type} {told : Quantity → β}
    (htold : ∀ a b, told a = told b → a.value.toRat = b.value.toRat) {q' best' : Quantity}
    (hbest : told best = told best')
    (h : ∀ u ∈ coarser, (q.convertTo u).map told = (q'.convertTo u).map told) :
    (q.climb precision best coarser).map told = (q'.climb precision best' coarser).map told := by
  induction coarser generalizing best best' with
  | nil => exact congrArg Except.ok hbest
  | cons u coarser ih =>
    unfold climb
    rcases map_eq_map (h u (List.mem_cons_self ..)) with
      ⟨e, hcandidate, hother⟩ | ⟨candidate, candidate', hcandidate, hother, hsame⟩
    · rw [hcandidate, hother]
    · have hbestPlaces : decimalPlaces best.value precision = decimalPlaces best'.value precision :=
        decimalPlaces_congr (htold _ _ hbest)
      have hplaces : decimalPlaces candidate.value precision =
          decimalPlaces candidate'.value precision :=
        decimalPlaces_congr (htold _ _ hsame)
      rw [hcandidate, hother]
      simp only [hbestPlaces, hplaces]
      split
      · exact congrArg Except.ok hbest
      · exact ih hsame fun v hv => h v (List.mem_cons_of_mem _ hv)

theorem selectFrom_congr {β : Type} {told : Quantity → β}
    (htold : ∀ a b, told a = told b → a.value.toRat = b.value.toRat) {q' : Quantity}
    (h : ∀ u ∈ group, (q.convertTo u).map told = (q'.convertTo u).map told) :
    (q.selectFrom group precision).map told = (q'.selectFrom group precision).map told := by
  cases group with
  | nil => rfl
  | cons base coarser =>
    simp only [selectFrom]
    rcases map_eq_map (h base (List.mem_cons_self ..)) with
      ⟨e, hbase, hother⟩ | ⟨best, best', hbase, hother, hsame⟩
    · rw [hbase, hother]
    · simp only [hbase, hother]
      exact climb_congr htold hsame fun v hv => h v (List.mem_cons_of_mem _ hv)

theorem denoted_selectFrom_congr {q' : Quantity}
    (h : ∀ u ∈ group, (q.convertTo u).map denoted = (q'.convertTo u).map denoted) :
    (q.selectFrom group precision).map denoted = (q'.selectFrom group precision).map denoted :=
  selectFrom_congr (fun _ _ hsame => congrArg Prod.fst hsame) h

/-- What is chosen is the best one so far or one of the candidates. -/
theorem eq_or_convertTo_of_climb (h : q.climb precision best coarser = .ok r) :
    r = best ∨ ∃ u ∈ coarser, q.convertTo u = .ok r := by
  induction coarser generalizing best with
  | nil =>
    cases h
    exact .inl rfl
  | cons u coarser ih =>
    unfold climb at h
    split at h
    · cases h
    rename_i candidate hcandidate
    split at h
    · cases h
      exact .inl rfl
    rcases ih h with rfl | ⟨v, hv, hconvert⟩
    · exact .inr ⟨u, List.mem_cons_self .., hcandidate⟩
    · exact .inr ⟨v, List.mem_cons_of_mem _ hv, hconvert⟩

theorem convertTo_of_selectFrom (h : q.selectFrom group precision = .ok r) :
    ∃ u ∈ group, q.convertTo u = .ok r := by
  cases group with
  | nil => cases h
  | cons base coarser =>
    simp only [selectFrom] at h
    split at h
    · cases h
    rename_i best hbase
    rcases eq_or_convertTo_of_climb h with rfl | ⟨u, hu, hconvert⟩
    · exact ⟨base, List.mem_cons_self .., hbase⟩
    · exact ⟨u, List.mem_cons_of_mem _ hu, hconvert⟩

/-- Two quantities of one amount convert alike into units whose sizes have at most 64 bits. -/
theorem denoted_convertTo_congr {q' : Quantity} (hscale : IsScale [q.unit, q'.unit, u])
    (hunitless : q.unit.isUnitless = false) (hword : u.multiplier.mantissa.natAbs < wordBound)
    (hamount : ∃ a : Decimal, a.toRat = q.amount) (heq : q'.amount = q.amount) :
    (q.convertTo u).map denoted = (q'.convertTo u).map denoted := by
  have hfamily : q.unit.family = q'.unit.family := hscale.family _ (by simp) _ (by simp)
  have hunitless' : q'.unit.isUnitless = false := by
    rw [MeasureUnit.isUnitless, ← hfamily]
    exact hunitless
  have hexact : q.exactIn u = q'.exactIn u := by
    rw [exactIn_eq hunitless, exactIn_eq hunitless', heq]
  obtain ⟨mode, hmode, hdenoted⟩ := denoted_convertTo (u := u) (hscale.mono (by simp)) hamount
  obtain ⟨mode', hmode', hdenoted'⟩ :=
    denoted_convertTo (q := q') (u := u) (hscale.mono (by simp)) (heq ▸ hamount)
  rw [hdenoted, hdenoted', hmode hword, hmode' hword, hexact]

/-- A choice of the same amount, made again from its result, gives that result. -/
theorem selectFrom_selectFrom (hscale : IsScale (q.unit :: group))
    (hunitless : q.unit.isUnitless = false)
    (hword : ∀ u ∈ group, u.multiplier.mantissa.natAbs < wordBound)
    (hamount : ∃ a : Decimal, a.toRat = q.amount) (hr : q.selectFrom group precision = .ok r)
    (heq : r.amount = q.amount) : r.selectFrom group precision = .ok r := by
  obtain ⟨u, hu, hconvert⟩ := convertTo_of_selectFrom hr
  obtain ⟨rfl, -⟩ := of_convertTo_eq_ok (hscale.mono (by simp [hu])) hamount hconvert
  have hcongr : (q.selectFrom group precision).map denoted =
      (r.selectFrom group precision).map denoted :=
    denoted_selectFrom_congr fun v hv =>
      denoted_convertTo_congr (hscale.mono (by simp [hu, hv])) hunitless (hword v hv) hamount heq
  rw [hr] at hcongr
  obtain ⟨again, hagain, hdenoted⟩ := map_eq_ok.1 hcongr.symm
  -- the second choice is in the same unit, in which nothing is converted
  obtain ⟨v, hv, hconvertAgain⟩ := convertTo_of_selectFrom hagain
  obtain ⟨hunit, -⟩ :=
    of_convertTo_eq_ok (hscale.mono (by simp [hu, hv])) (heq ▸ hamount) hconvertAgain
  have hsame : v = r.unit := hunit.symm.trans (congrArg Prod.snd hdenoted)
  rw [hsame, convertTo_unit] at hconvertAgain
  cases hconvertAgain
  exact hagain

end Quantity

/-! ## The standard units -/

namespace Standard

open Quantity

theorem displayGroups_distinct : ∀ group ∈ displayGroups, ∀ u ∈ group,
    displayGroups.find? (·.any (·.sameAs u)) = some group := by
  decide +kernel

theorem isScale_displayGroups : ∀ group ∈ displayGroups, IsScale group ∧ ∀ u ∈ group,
    u.isUnitless = false ∧ u.multiplier.mantissa.natAbs < wordBound := by
  decide +kernel

theorem smallStep_displayGroups : ∀ group ∈ displayGroups,
    (group.IsChain fun u v => u.multiplier.toRat ≤ v.multiplier.toRat) ∧
      ∀ places ≤ 1, group.IsChain (SmallStep 4 places) := by
  decide +kernel

theorem groupFor_units {group : List MeasureUnit} {u : MeasureUnit} (hgroup : group ∈ displayGroups)
    (hu : u ∈ group) : units.groupFor u = some group := by
  rw [Registry.groupFor, registered_units.1]
  exact displayGroups_distinct group hgroup u hu

theorem select_units {group : List MeasureUnit} {q : Quantity} (hgroup : group ∈ displayGroups)
    (hunit : q.unit ∈ group) (precision : Nat) :
    units.select q precision = q.selectFrom group precision := by
  rw [Registry.select, groupFor_units hgroup hunit]

/--
With four places, the standard choice is exact for a quantity of at most one place in the smallest
unit of its group, up to 2^96 units of the fourth place.
-/
theorem exactIn_select {q b r : Quantity} {base : MeasureUnit} {coarser : List MeasureUnit}
    (hgroup : base :: coarser ∈ displayGroups) (hunit : q.unit ∈ base :: coarser)
    (hamount : ∃ a : Decimal, a.toRat = q.amount) (hbase : q.convertTo base = .ok b)
    (hexact : b.value.toRat = q.exactIn base) (hplaces : b.value.normalize.scale ≤ 1)
    (hroom : |b.value.toRat| * 10 ^ 4 < mantissaBound) (hr : units.select q 4 = .ok r) :
    r.value.toRat = q.exactIn r.unit ∧ r.ShownExactly 4 := by
  obtain ⟨hscale, -⟩ := isScale_displayGroups _ hgroup
  obtain ⟨hascending, hsteps⟩ := smallStep_displayGroups _ hgroup
  have hgrid : HasPlaces 1 b.value.toRat := scale_normalize_le_iff.1 hplaces
  have hshown : b.ShownExactly 4 := shownExactly_iff.2 (hgrid.mono (by omega))
  have hneeded : decimalPlaces b.value 4 ≤ 1 := by
    rw [decimalPlaces, scale_normalize_congr (toRat_roundTo_of_hasPlaces (hgrid.mono (by omega)))]
    exact hplaces
  rw [select_units hgroup hunit] at hr
  exact exactIn_selectFrom (hscale.mono (by simp [List.mem_cons.1 hunit])) hascending hamount hbase
    hexact hshown hroom ((hsteps _ hneeded).imp fun _ _ hsmall _ => hsmall) hr

/--
The standard choice of a unit is idempotent for a quantity whose amount is a decimal and is kept by
the choice: made again from its result, it gives that result.
-/
theorem select_select {q r : Quantity} {group : List MeasureUnit} {precision : Nat}
    (hgroup : group ∈ units.groups) (hunit : q.unit ∈ group)
    (hamount : ∃ a : Decimal, a.toRat = q.amount) (hr : units.select q precision = .ok r)
    (heq : r.amount = q.amount) : units.select r precision = .ok r := by
  rw [registered_units.1] at hgroup
  obtain ⟨hscale, hunits⟩ := isScale_displayGroups group hgroup
  have hwith : IsScale (q.unit :: group) := hscale.mono (by simp [hunit])
  rw [select_units hgroup hunit] at hr
  obtain ⟨u, hu, hconvert⟩ := convertTo_of_selectFrom hr
  obtain ⟨rfl, -⟩ := of_convertTo_eq_ok (hwith.mono (by simp [hu])) hamount hconvert
  rw [select_units hgroup hu]
  exact selectFrom_selectFrom hwith (hunits _ hunit).1 (fun v hv => (hunits v hv).2) hamount hr heq

/-- Two hours are chosen for a hundred and twenty minutes, and chosen again. -/
theorem select_select_minutes :
    durations[3] ∈ (durations.drop 1).take 5 ∧
      units.select ⟨.ofInt 120, durations[3]⟩ 4 = .ok ⟨.ofInt 2, durations[4]⟩ ∧
      units.select ⟨.ofInt 2, durations[4]⟩ 4 = .ok ⟨.ofInt 2, durations[4]⟩ := by
  have hgroup : (durations.drop 1).take 5 ∈ displayGroups := by decide +kernel
  have hunit : durations[3] ∈ (durations.drop 1).take 5 := by decide +kernel
  have hselect : units.select ⟨.ofInt 120, durations[3]⟩ 4 = .ok ⟨.ofInt 2, durations[4]⟩ := by
    rw [select_units hgroup hunit]
    decide +kernel
  have hregistered : (durations.drop 1).take 5 ∈ units.groups := by
    rw [registered_units.1]
    exact hgroup
  refine ⟨hunit, hselect, ?_⟩
  exact select_select hregistered hunit ⟨.ofInt 7200000000000, by decide +kernel⟩ hselect
    (by decide +kernel)

end Standard

end LineCalc
