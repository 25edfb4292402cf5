import LineCalc.Proofs.Amounts
import LineCalc.Proofs.Decimal.Within
import LineCalc.Proofs.Selection
import LineCalc.Proofs.Totals

/-!
# The order of a sum

A sum is computed in the unit of its left operand, so that its two orders convert in opposite
directions and are computed in different units. Where the sizes of the units are powers of ten and the
operands have few digits, nothing is rounded on the way: both orders come to the same amount, and the
choice of a unit for display depends on the amount only.

* **`IsShort`**: few enough digits to be moved from unit to unit without rounding.
* **`Arithmetic.exists_add`**: a sum of short operands comes to their exact sum.
* **`Quantity.exists_selectFrom_of_amount`**: quantities of one amount are shown alike.
* **`Calculator.evaluateLine_add_comm`**: the text of a sum is that of its other order.
-/

namespace LineCalc

open Decimal Lexicon Text

/-! ## Short numbers -/

/-- A number without sign, up to a limit, of at most four places. -/
structure IsShort (limit x : ℚ) : Prop where
  nonneg : 0 ≤ x
  le : x ≤ limit
  places : HasPlaces 4 x

namespace IsShort

variable {limit other x y : ℚ} {k : Nat}

theorem add (hx : IsShort limit x) (hy : IsShort other y) : IsShort (limit + other) (x + y) where
  nonneg := add_nonneg hx.nonneg hy.nonneg
  le := add_le_add hx.le hy.le
  places := hx.places.add hy.places

theorem mono (hx : IsShort limit x) (hle : limit ≤ other) : IsShort other x :=
  ⟨hx.nonneg, hx.le.trans hle, hx.places⟩

theorem mul_pow (hx : IsShort limit x) (hk : k ≤ 9) : IsShort (limit * 10 ^ 9) (x * 10 ^ k) where
  nonneg := mul_nonneg hx.nonneg (ten_pow_pos k).le
  le := by
    have hpow : (10 : ℚ) ^ k ≤ 10 ^ 9 := pow_le_pow_right₀ (by norm_num) hk
    exact mul_le_mul hx.le hpow (ten_pow_pos k).le (hx.nonneg.trans hx.le)
  places := by
    have hwhole : HasPlaces 0 ((10 : ℚ) ^ k) := ⟨10 ^ k, by push_cast; ring⟩
    exact hx.places.mul hwhole

theorem within (hx : IsShort limit x) : Within 4 limit x where
  grid := hx.places
  size := by
    rw [abs_of_nonneg hx.nonneg]
    exact hx.le

/-- In a unit whose size is a power of ten, a short amount keeps its digits and is not rounded. -/
theorem map_toRat_nearest? (hx : IsShort (2 * 10 ^ 21) x) (hk : k ≤ 9) (mode : Rounding) :
    (nearest? mode (x / 10 ^ k) maxScale).map toRat = some (x / 10 ^ k) := by
  have hroom : 4 + k ≤ maxScale := by
    have hmax : maxScale = 28 := rfl
    omega
  have hfits : (2 * 10 ^ 21 / 10 ^ k * 10 ^ (4 + k) : ℚ) < mantissaBound := by
    rw [pow_add, mul_comm ((10 : ℚ) ^ 4), ← mul_assoc, div_mul_cancel₀ _ (ten_pow_pos k).ne',
      cast_mantissaBound]
    norm_num
  exact (hx.within.div_pow k).map_toRat_nearest? hroom hfits mode

theorem exists_toRat (hx : IsShort (2 * 10 ^ 21) x) : ∃ a : Decimal, a.toRat = x := by
  have hkept := hx.map_toRat_nearest? (Nat.zero_le 9) .halfEven
  rw [pow_zero, div_one] at hkept
  obtain ⟨a, -, ha⟩ := Option.map_eq_some_iff.1 hkept
  exact ⟨a, ha⟩

end IsShort

/-! ## Units whose sizes are powers of ten -/

/-- The size of the unit is a power of ten, and not too large. -/
def MeasureUnit.HasDecimalSize (u : MeasureUnit) : Prop :=
  ∃ k ≤ 9, u.multiplier.toRat = 10 ^ k

instance (u : MeasureUnit) : Decidable u.HasDecimalSize :=
  inferInstanceAs (Decidable (∃ k ≤ 9, u.multiplier.toRat = 10 ^ k))

theorem hasDecimalSize_unitless : MeasureUnit.unitless.HasDecimalSize :=
  ⟨0, by decide, by decide +kernel⟩

/-- Units of one scale whose sizes are powers of ten, and which are no percentages. -/
structure IsDecimalScale (group : List MeasureUnit) : Prop where
  scale : IsScale group
  unitless : ∀ u ∈ group, u.isUnitless = false
  percent : ∀ u ∈ group, u.isPercent = false
  size : ∀ u ∈ group, u.HasDecimalSize

namespace IsDecimalScale

variable {group : List MeasureUnit} {u v : MeasureUnit}

theorem isScale_pair (h : IsDecimalScale group) (hu : u ∈ group) (hv : v ∈ group) :
    IsScale [u, v] :=
  h.scale.mono (by simp [hu, hv])

theorem hasDecimalSize (h : IsDecimalScale group) (hu : u ∈ MeasureUnit.unitless :: group) :
    u.HasDecimalSize := by
  rcases List.mem_cons.1 hu with rfl | hmem
  · exact hasDecimalSize_unitless
  · exact h.size u hmem

theorem isPercent (h : IsDecimalScale group) (hu : u ∈ MeasureUnit.unitless :: group) :
    u.isPercent = false := by
  rcases List.mem_cons.1 hu with rfl | hmem
  · rfl
  · exact h.percent u hmem

/-- An operand is plain, or it has a unit of the group. -/
theorem eq_unitless_or_mem (h : IsDecimalScale group) (hu : u ∈ MeasureUnit.unitless :: group) :
    u = .unitless ∨ (u ∈ group ∧ u.isUnitless = false) := by
  rcases List.mem_cons.1 hu with rfl | hmem
  · exact .inl rfl
  · exact .inr ⟨hmem, h.unitless u hmem⟩

end IsDecimalScale

namespace Quantity

variable {group : List MeasureUnit} {p q q' : Quantity} {u : MeasureUnit}

/-- A short amount is converted without rounding. -/
theorem denoted_convertTo_of_isShort (hgroup : IsDecimalScale group) (hunit : q.unit ∈ group)
    (hu : u ∈ group) (hshort : IsShort (2 * 10 ^ 21) q.amount) :
    (q.convertTo u).map denoted = .ok (q.amount / u.multiplier.toRat, u) := by
  obtain ⟨k, hk, hpower⟩ := hgroup.size u hu
  obtain ⟨mode, -, hdenoted⟩ :=
    denoted_convertTo (hgroup.isScale_pair hunit hu) hshort.exists_toRat
  rw [hdenoted, exactIn_eq (hgroup.unitless _ hunit), inRange, hpower, hshort.map_toRat_nearest? hk]

/-! ## Sums -/

/-- The unit of a quantity beside another one: a plain number takes the unit of the other. -/
def unitBeside (p q : Quantity) : MeasureUnit :=
  if p.unit.isUnitless then q.unit else p.unit

/-- What a quantity comes to beside another one. -/
def amountBeside (p q : Quantity) : ℚ :=
  p.value.toRat * (p.unitBeside q).multiplier.toRat

theorem unitBeside_of_plain (h : p.unit = .unitless) : p.unitBeside q = q.unit := by
  have hunitless : MeasureUnit.unitless.isUnitless = true := rfl
  rw [unitBeside, h, hunitless, if_pos rfl]

theorem unitBeside_of_unit (h : p.unit.isUnitless = false) : p.unitBeside q = p.unit := by
  rw [unitBeside, h, if_neg Bool.false_ne_true]

/-- Beside a plain number every operand is in its own unit. -/
theorem unitBeside_plain (hgroup : IsDecimalScale group)
    (hq : q.unit ∈ MeasureUnit.unitless :: group) (hp : p.unit = .unitless) :
    q.unitBeside p = q.unit := by
  rcases hgroup.eq_unitless_or_mem hq with hplain | ⟨-, hunit⟩
  · rw [unitBeside_of_plain hplain, hp, hplain]
  · exact unitBeside_of_unit hunit

theorem unitBeside_mem {units : List MeasureUnit} (hp : p.unit ∈ units) (hq : q.unit ∈ units) :
    p.unitBeside q ∈ units := by
  unfold unitBeside
  split
  · exact hq
  · exact hp

/-- Two operands are both in no unit, or each in a unit of the group beside the other. -/
theorem unitBeside_cases (hgroup : IsDecimalScale group)
    (hp : p.unit ∈ MeasureUnit.unitless :: group) (hq : q.unit ∈ MeasureUnit.unitless :: group) :
    (p.unitBeside q = .unitless ∧ q.unitBeside p = .unitless) ∨
      (p.unitBeside q ∈ group ∧ q.unitBeside p ∈ group) := by
  rcases hgroup.eq_unitless_or_mem hp with hplain | ⟨hpmem, hpunit⟩
  · rw [unitBeside_of_plain hplain, unitBeside_plain hgroup hq hplain]
    rcases hgroup.eq_unitless_or_mem hq with hqplain | ⟨hqmem, -⟩
    · exact .inl ⟨hqplain, hqplain⟩
    · exact .inr ⟨hqmem, hqmem⟩
  · rw [unitBeside_of_unit hpunit]
    rcases hgroup.eq_unitless_or_mem hq with hqplain | ⟨hqmem, hqunit⟩
    · rw [unitBeside_of_plain hqplain]
      exact .inr ⟨hpmem, hpmem⟩
    · rw [unitBeside_of_unit hqunit]
      exact .inr ⟨hpmem, hqmem⟩

theorem isShort_amountBeside (hgroup : IsDecimalScale group)
    (hp : p.unit ∈ MeasureUnit.unitless :: group) (hq : q.unit ∈ MeasureUnit.unitless :: group)
    (hshort : IsShort (10 ^ 12) p.value.toRat) : IsShort (10 ^ 21) (p.amountBeside q) := by
  obtain ⟨k, hk, hpower⟩ := hgroup.hasDecimalSize (unitBeside_mem hp hq)
  rw [amountBeside, hpower]
  exact (hshort.mul_pow hk).mono (by norm_num)

theorem isShort_add (hgroup : IsDecimalScale group) (hp : p.unit ∈ MeasureUnit.unitless :: group)
    (hq : q.unit ∈ MeasureUnit.unitless :: group) (hpshort : IsShort (10 ^ 12) p.value.toRat)
    (hqshort : IsShort (10 ^ 12) q.value.toRat) :
    IsShort (2 * 10 ^ 21) (p.amountBeside q + q.amountBeside p) :=
  ((isShort_amountBeside hgroup hp hq hpshort).add
    (isShort_amountBeside hgroup hq hp hqshort)).mono (by norm_num)

end Quantity

namespace Arithmetic

open Quantity

variable {group : List MeasureUnit} {p q : Quantity}

/-- The operands of a sum are brought to one unit without rounding. -/
theorem exists_align (hgroup : IsDecimalScale group) (hp : p.unit ∈ MeasureUnit.unitless :: group)
    (hq : q.unit ∈ MeasureUnit.unitless :: group) (hshort : IsShort (10 ^ 12) q.value.toRat) :
    ∃ y, add.align p q = .ok (p.value, y, p.unitBeside q) ∧
      y.toRat * (p.unitBeside q).multiplier.toRat = q.amountBeside p := by
  have hmixes : add.mixes p q = false := by
    rw [mixes, hgroup.isPercent hp, hgroup.isPercent hq]
    rfl
  have hunitless : MeasureUnit.unitless.isUnitless = true := rfl
  rw [align, hmixes, if_neg Bool.false_ne_true]
  rcases hgroup.eq_unitless_or_mem hp with hplain | ⟨hpmem, hpunit⟩
  · -- a plain number on the left takes the unit of the other operand, if that has one
    refine ⟨q.value, ?_, ?_⟩
    · rw [unitBeside_of_plain hplain, hplain, hunitless, Bool.true_and]
      rcases hgroup.eq_unitless_or_mem hq with hqplain | ⟨-, hqunit⟩
      · rw [hqplain, hunitless, ← hqplain, convertTo_unit]
        rfl
      · rw [hqunit]
        rfl
    · rw [unitBeside_of_plain hplain, amountBeside, unitBeside_plain hgroup hq hplain]
  · rw [unitBeside_of_unit hpunit, hpunit, Bool.false_and, if_neg Bool.false_ne_true]
    rcases hgroup.eq_unitless_or_mem hq with hplain | ⟨hqmem, hqunit⟩
    · obtain ⟨unit, hconvert⟩ := convertTo_plain q.value p.unit
      rw [← hplain] at hconvert
      exact ⟨q.value, by rw [hconvert], by rw [amountBeside, unitBeside_of_plain hplain]⟩
    · have hamount : q.amountBeside p = q.amount := by
        rw [amountBeside, unitBeside_of_unit hqunit, amount]
      have hqshort : IsShort (2 * 10 ^ 21) q.amount :=
        hamount ▸ (isShort_amountBeside hgroup hq hp hshort).mono (by norm_num)
      obtain ⟨c, hconvert, hdenoted⟩ :=
        map_eq_ok.1 (denoted_convertTo_of_isShort hgroup hqmem hpmem hqshort)
      have hvalue : c.value.toRat = q.amount / p.unit.multiplier.toRat := congrArg Prod.fst hdenoted
      refine ⟨c.value, by rw [hconvert], ?_⟩
      rw [hvalue, hamount, div_mul_cancel₀ _ (hgroup.scale.pos _ hpmem).ne']

/-- A sum of short operands comes to what they come to together, in the unit of the left one. -/
theorem exists_add (hgroup : IsDecimalScale group) (hp : p.unit ∈ MeasureUnit.unitless :: group)
    (hq : q.unit ∈ MeasureUnit.unitless :: group) (hpshort : IsShort (10 ^ 12) p.value.toRat)
    (hqshort : IsShort (10 ^ 12) q.value.toRat) :
    ∃ r, add.onQuantities p q = .ok r ∧ r.unit = p.unitBeside q ∧
      r.amount = p.amountBeside q + q.amountBeside p := by
  obtain ⟨y, halign, hy⟩ := exists_align hgroup hp hq hqshort
  obtain ⟨k, hk, hpower⟩ := hgroup.hasDecimalSize (unitBeside_mem hp hq)
  have hshort := isShort_add hgroup hp hq hpshort hqshort
  have hsum : p.value.toRat + y.toRat = (p.amountBeside q + q.amountBeside p) / 10 ^ k := by
    rw [eq_div_iff (ten_pow_pos k).ne', add_mul, ← hpower, hy, ← amountBeside]
  have hadd : (p.value.add? y).map toRat =
      some ((p.amountBeside q + q.amountBeside p) / 10 ^ k) := by
    rw [map_toRat_add?, hsum, hshort.map_toRat_nearest? hk]
  obtain ⟨z, hz, hvalue⟩ := Option.map_eq_some_iff.1 hadd
  refine ⟨⟨z, p.unitBeside q⟩, ?_, rfl, ?_⟩
  · rw [onQuantities, hgroup.isPercent hq, Bool.false_and, if_neg Bool.false_ne_true, halign]
    simp only [bind, Except.bind, onDecimals, hz]
    rfl
  · rw [amount, hvalue, hpower, div_mul_cancel₀ _ (ten_pow_pos k).ne']

end Arithmetic

/-! ## What is shown -/

namespace Quantity

variable {group coarser : List MeasureUnit} {q q' best : Quantity} {precision : Nat}

theorem exists_climb_of_converts (h : ∀ u ∈ coarser, ∃ c, q.convertTo u = .ok c) :
    ∃ r, q.climb precision best coarser = .ok r := by
  induction coarser generalizing best with
  | nil => exact ⟨best, rfl⟩
  | cons u coarser ih =>
    obtain ⟨⟨c, hc⟩, hothers⟩ := List.forall_mem_cons.1 h
    rw [climb, hc]
    dsimp only
    split
    · exact ⟨best, rfl⟩
    · exact ih hothers

/-- A unit is chosen if the quantity can be expressed in each one of the group. -/
theorem exists_selectFrom_of_converts (hne : group ≠ [])
    (h : ∀ u ∈ group, ∃ c, q.convertTo u = .ok c) : ∃ r, q.selectFrom group precision = .ok r := by
  obtain ⟨base, coarser, rfl⟩ := List.exists_cons_of_ne_nil hne
  obtain ⟨⟨b, hb⟩, hothers⟩ := List.forall_mem_cons.1 h
  rw [selectFrom, hb]
  exact exists_climb_of_converts hothers

/-- Quantities of one short amount are shown alike, whatever units of the group they are in. -/
theorem exists_selectFrom_of_amount (hgroup : IsDecimalScale group) (hq : q.unit ∈ group)
    (hq' : q'.unit ∈ group) (hshort : IsShort (2 * 10 ^ 21) q.amount)
    (hamount : q'.amount = q.amount) (precision : Nat) :
    ∃ r r', q.selectFrom group precision = .ok r ∧ q'.selectFrom group precision = .ok r' ∧
      r.denoted = r'.denoted := by
  have hconverts : ∀ u ∈ group, (q.convertTo u).map denoted = (q'.convertTo u).map denoted := by
    intro u hu
    rw [denoted_convertTo_of_isShort hgroup hq hu hshort,
      denoted_convertTo_of_isShort hgroup hq' hu (hamount.symm ▸ hshort), hamount]
  have hexists : ∃ r, q.selectFrom group precision = .ok r := by
    refine exists_selectFrom_of_converts (List.ne_nil_of_mem hq) fun u hu => ?_
    obtain ⟨c, hc, -⟩ := map_eq_ok.1 (denoted_convertTo_of_isShort hgroup hq hu hshort)
    exact ⟨c, hc⟩
  obtain ⟨r, hr⟩ := hexists
  have hcongr : (q.selectFrom group precision).map denoted =
      (q'.selectFrom group precision).map denoted := denoted_selectFrom_congr hconverts
  rw [hr] at hcongr
  obtain ⟨r', hr', hdenoted⟩ := map_eq_ok.1 hcongr.symm
  exact ⟨r, r', hr, hr', hdenoted.symm⟩

end Quantity

/-- What is written of a quantity depends on its number and its unit only. -/
theorem NumberFormat.formatValue_congr (f : NumberFormat) {q q' : Quantity}
    (h : q.denoted = q'.denoted) : f.formatValue (.number q) = f.formatValue (.number q') := by
  obtain ⟨hvalue, hunit⟩ := Prod.mk.inj h
  have hround : f.round q.value = f.round q'.value :=
    normalize_congr (toRat_roundTo_congr hvalue)
  simp only [formatValue, format, write, hround, hunit]

/-! ## The line of a sum -/

namespace Literal

/-- The number that the digits make. -/
def value (l : Literal) : ℚ :=
  l.mantissa / 10 ^ l.fraction.length

theorem value_mul_pow (l : Literal) : l.value * 10 ^ l.fraction.length = l.mantissa :=
  div_mul_cancel₀ _ (ten_pow_pos _).ne'

end Literal

namespace Amount

variable {group : List MeasureUnit} {a : Amount}

/-- An amount of at most four places up to a limit, with a unit of the group or without one. -/
structure ShortIn (a : Amount) (group : List MeasureUnit) : Prop where
  named : a.NamedIn group
  places : a.literal.fraction.length ≤ 4
  le : a.literal.value ≤ 10 ^ 12

theorem ShortIn.fits (h : a.ShortIn group) : a.Fits where
  mantissa := by
    have hpow : (10 : ℚ) ^ a.literal.fraction.length ≤ 10 ^ 4 :=
      pow_le_pow_right₀ (by norm_num) h.places
    have hle : (a.literal.mantissa : ℚ) ≤ 10 ^ 12 * 10 ^ 4 := by
      rw [← a.literal.value_mul_pow]
      exact mul_le_mul h.le hpow (ten_pow_pos _).le (by norm_num)
    have hnat : a.literal.mantissa ≤ 10 ^ 12 * 10 ^ 4 := by exact_mod_cast hle
    exact hnat.trans_lt (by decide)
  places := h.places.trans (by decide)

theorem ShortIn.isShort (h : a.ShortIn group) : IsShort (10 ^ 12) (a.value h.fits).toRat where
  nonneg := by
    simp only [value, toRat, ofScaled, Int.cast_natCast]
    positivity
  le := h.le
  places := (hasPlaces_toRat _).mono h.places

end Amount

namespace Standard

variable {group : List MeasureUnit} {a b : Amount}

/-- The line that adds one amount to another one. -/
def sumLine (a b : Amount) : String :=
  a.text ++ " + " ++ b.text

/-- The tree of the sum of two amounts. -/
def sumTree (ha : a.Fits) (hb : b.Fits) : Expression :=
  .infixed plus (a.expression ha) (b.expression hb)

theorem exists_written_sumLine (hanamed : a.NamedIn group) (hbnamed : b.NamedIn group)
    (ha : a.Fits) (hb : b.Fits) : ∃ tokens openOps, lexicon.lex (sumLine a b) = .ok tokens ∧
      Written Config.standard (sumTree ha hb) tokens openOps := by
  have hline : (sumLine a b).toList = a.text.toList ++ ' ' :: '+' :: ' ' :: b.text.toList := by
    simp [sumLine, String.toList_append]
  obtain ⟨left, afterLeft, hleftScan, hleft⟩ := exists_written_amount hanamed ha
    (.inr ⟨' ' :: b.text.toList, rfl⟩) (a.startsWord_text.trimStart_append _) 0 true
  obtain ⟨sign, afterSign, hsign⟩ := scan_plus (' ' :: b.text.toList) afterLeft
  have htrim : trimStart (' ' :: b.text.toList) = b.text.toList ++ [] := by
    have hword := b.startsWord_text.trimStart_append []
    rw [List.append_nil] at hword ⊢
    exact hword
  obtain ⟨right, after, hrightScan, hright⟩ :=
    exists_written_amount hbnamed hb (.inl rfl) htrim afterSign false
  -- the parts are put together from the end of the line to its start
  have hend : lexicon.scan after false [] = ([], none) := scan_of_blank rfl
  rw [hend, List.append_nil] at hrightScan
  rw [hrightScan] at hsign
  rw [hsign] at hleftScan
  refine ⟨left ++ ⟨.operator, "+", sign⟩ :: right, [.binary plus], ?_, ?_⟩
  · rw [lex_eq_ok, hline, hleftScan]
  · exact @Written.infixed _ ⟨.operator, "+", sign⟩ _ _ _ _ _ _ _ hleft (by simp) rfl find?_plus
      hright (by simp [FitsRightOf])

theorem isDecimalScale_of_family {group : List MeasureUnit} (hgroup : group ∈ displayGroups)
    (hfamily : ∀ u ∈ group, u.family ∈ ["length", "weight", "volume"]) : IsDecimalScale group := by
  have hsizes : ∀ group ∈ displayGroups, ∀ u ∈ group,
      u.family ∈ ["length", "weight", "volume"] → u.isPercent = false ∧ u.HasDecimalSize := by
    decide +kernel
  obtain ⟨hscale, hunits⟩ := isScale_displayGroups group hgroup
  exact ⟨hscale, fun u hu => (hunits u hu).1, fun u hu => (hsizes group hgroup u hu (hfamily u hu)).1,
    fun u hu => (hsizes group hgroup u hu (hfamily u hu)).2⟩

theorem select_standard {q : Quantity} (hgroup : group ∈ displayGroups) (hunit : q.unit ∈ group) :
    Config.standard.units.select q Config.standard.format.precision = q.selectFrom group 4 := by
  rw [units_standard, format_standard, select_units hgroup hunit]

end Standard

namespace Calculator

variable {group : List MeasureUnit} {a b : Amount}

theorem selects_sumTree (ha : a.Fits) (hb : b.Fits) :
    selects (Standard.sumTree ha hb).postorder = true := by
  unfold Standard.sumTree Amount.expression
  cases a.unit? <;> cases b.unit? <;> rfl

theorem compile_sumLine (ha : a.ShortIn group) (hb : b.ShortIn group) :
    (ofConfig .standard).compile (Standard.sumLine a b) =
      .ok (Standard.sumTree ha.fits hb.fits).postorder := by
  obtain ⟨tokens, openOps, hlex, hwritten⟩ :=
    Standard.exists_written_sumLine ha.named hb.named ha.fits hb.fits
  exact compile_of_written hlex hwritten

theorem evaluate_sumLine (ha : a.ShortIn group) (hb : b.ShortIn group) {r : Quantity}
    (hadd : Arithmetic.add.onQuantities (a.quantity ha.fits) (b.quantity hb.fits) = .ok r)
    (env : Environment) :
    ((ofConfig .standard).evaluate env (Standard.sumLine a b)).2 = .number r := by
  have hsum : add (.number (a.quantity ha.fits)) (.number (b.quantity hb.fits)) =
      .ok (.number r) := by
    rw [add_number, hadd]
    rfl
  have htree : (Standard.sumTree ha.fits hb.fits).evaluate Config.standard.units env =
      (env, .ok (.number r)) := by
    simp only [Standard.sumTree, Expression.evaluate, Amount.evaluate_expression, Outcome.andThen]
    exact congrArg (Prod.mk env) hsum
  rw [evaluate_of_postorder (compile_sumLine ha hb) rfl htree]

/-- Sums of one short amount are shown alike, in units of one group as well as without a unit. -/
theorem formatValue_shown_congr (hgroup : group ∈ Standard.displayGroups)
    (hdecimal : IsDecimalScale group) {r r' : Quantity} {plan plan' : Plan}
    (hunits : (r.unit = .unitless ∧ r'.unit = .unitless) ∨ (r.unit ∈ group ∧ r'.unit ∈ group))
    (hshort : IsShort (2 * 10 ^ 21) r.amount) (hamount : r'.amount = r.amount)
    (hplan : selects plan = true) (hplan' : selects plan' = true) :
    Config.standard.format.formatValue ((ofConfig .standard).shown (.ok plan) (.number r)) =
      Config.standard.format.formatValue
        ((ofConfig .standard).shown (.ok plan') (.number r')) := by
  rcases hunits with ⟨hplain, hplain'⟩ | ⟨hmem, hmem'⟩
  · have hunitless : MeasureUnit.unitless.isUnitless = true := rfl
    have hone : MeasureUnit.unitless.multiplier.toRat = 1 := by decide +kernel
    simp only [shown, selectUnit, hplain, hplain', hunitless, Bool.true_or, if_true]
    refine NumberFormat.formatValue_congr _ (Prod.ext ?_ (hplain.trans hplain'.symm))
    rw [Quantity.amount, Quantity.amount, hplain, hplain', hone, mul_one, mul_one] at hamount
    exact hamount.symm
  · obtain ⟨best, best', hbest, hbest', hdenoted⟩ :=
      Quantity.exists_selectFrom_of_amount hdecimal hmem hmem' hshort hamount 4
    have hconfig : (ofConfig .standard).config = Config.standard := rfl
    simp only [shown, selectUnit, hdecimal.unitless _ hmem, hdecimal.unitless _ hmem', hplan, hplan',
      Bool.not_true, Bool.or_self, Bool.false_eq_true, if_false, hconfig,
      Standard.select_standard hgroup hmem, Standard.select_standard hgroup hmem', hbest, hbest']
    exact NumberFormat.formatValue_congr _ hdenoted

/--
A sum is shown alike in both orders: for two amounts of at most four places and up to 10^12, each in
no unit or in one of the same group of lengths, weights or volumes.
-/
theorem evaluateLine_add_comm (hgroup : group ∈ Config.standard.units.groups)
    (hfamily : ∀ u ∈ group, u.family ∈ ["length", "weight", "volume"]) (ha : a.ShortIn group)
    (hb : b.ShortIn group) (env : Environment) :
    ((ofConfig .standard).evaluateLine env (a.text ++ " + " ++ b.text)).2 =
        ((ofConfig .standard).evaluateLine env (b.text ++ " + " ++ a.text)).2 ∧
      ∃ r, ((ofConfig .standard).evaluate env (a.text ++ " + " ++ b.text)).2 = .number r := by
  have hgroups : group ∈ Standard.displayGroups := by
    rwa [Standard.units_standard, Standard.registered_units.1] at hgroup
  have hdecimal := Standard.isDecimalScale_of_family hgroups hfamily
  have hamem := Amount.unit_quantity_mem ha.named ha.fits
  have hbmem := Amount.unit_quantity_mem hb.named hb.fits
  obtain ⟨r, hadd, hunit, hamount⟩ :=
    Arithmetic.exists_add hdecimal hamem hbmem ha.isShort hb.isShort
  obtain ⟨r', hadd', hunit', hamount'⟩ :=
    Arithmetic.exists_add hdecimal hbmem hamem hb.isShort ha.isShort
  have hvalue := evaluate_sumLine ha hb hadd env
  have hvalue' := evaluate_sumLine hb ha hadd' env
  have hunits := Quantity.unitBeside_cases hdecimal hamem hbmem
  rw [← hunit, ← hunit'] at hunits
  have hshort : IsShort (2 * 10 ^ 21) r.amount := by
    rw [hamount]
    exact Quantity.isShort_add hdecimal hamem hbmem ha.isShort hb.isShort
  have hsame : r'.amount = r.amount := by rw [hamount, hamount', add_comm]
  rw [← Standard.sumLine, ← Standard.sumLine]
  refine ⟨?_, r, hvalue⟩
  rw [snd_evaluateLine, snd_evaluateLine, hvalue, hvalue', compile_sumLine ha hb,
    compile_sumLine hb ha]
  exact formatValue_shown_congr hgroups hdecimal hunits hshort hsame (selects_sumTree _ _)
    (selects_sumTree _ _)

/-- 1.5 km. -/
def track : Amount :=
  ⟨⟨['1'], ['5'], List.all_eq_true.1 rfl, by decide⟩, some "km"⟩

/-- .25 centimetres. -/
def splinter : Amount :=
  ⟨⟨[], ['2', '5'], List.all_eq_true.1 rfl, by decide⟩, some "centimetres"⟩

/-- In both orders the sum of the two is shown alike, and it is a quantity. -/
theorem evaluateLine_add_comm_lengths :
    ((ofConfig .standard).evaluateLine (.fresh default) "1.5 km + .25 centimetres").2 =
        ((ofConfig .standard).evaluateLine (.fresh default) ".25 centimetres + 1.5 km").2 ∧
      ∃ r, ((ofConfig .standard).evaluate (.fresh default) "1.5 km + .25 centimetres").2 =
        .number r := by
  have hgroup : Standard.lengths.take 4 ∈ Config.standard.units.groups := by
    rw [Standard.units_standard, Standard.registered_units.1]
    decide +kernel
  have hlisted : ∀ name ∈ ["km", "centimetres"], ∃ u ∈ Standard.lengths.take 4,
      u ∈ Standard.listedUnits ∧ name ∈ u.names := by
    decide +kernel
  have hnames : ∀ name ∈ ["km", "centimetres"], ∃ u ∈ Standard.lengths.take 4,
      Config.standard.units.lookup name = some u := by
    intro name hname
    obtain ⟨u, hu, hmem, hin⟩ := hlisted name hname
    refine ⟨u, hu, ?_⟩
    rw [Standard.units_standard]
    exact Standard.registered_units.2 u hmem name hin
  have htrack : track.ShortIn (Standard.lengths.take 4) :=
    ⟨fun name hname => hnames name (by simp_all [track]), by decide, by decide +kernel⟩
  have hsplinter : splinter.ShortIn (Standard.lengths.take 4) :=
    ⟨fun name hname => hnames name (by simp_all [splinter]), by decide, by decide +kernel⟩
  have hline : track.text ++ " + " ++ splinter.text = "1.5 km + .25 centimetres" := by decide
  have hother : splinter.text ++ " + " ++ track.text = ".25 centimetres + 1.5 km" := by decide
  have hcomm :=
    evaluateLine_add_comm hgroup (by decide +kernel) htrack hsplinter (.fresh default)
  rwa [hline, hother] at hcomm

end Calculator

end LineCalc
