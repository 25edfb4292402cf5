import LineCalc.Config.Standard
import LineCalc.Proofs.Expression.Evaluation

/-!
# Dimensions are kept

Arithmetic forgets no dimension. A plain number and a percentage may give way to the unit of the other
operand, but an amount of some family meets an amount of another family only to fail. So the family
of what a tree of arithmetic gives is that of every amount written in the tree, at whatever depth.

* **`MeasureUnit.Fits`**: a unit that measures what another one does, or nothing at all.
* **`Arithmetic.fits_of_onQuantities`**: the units of both operands fit the unit of the result.
* **`Expression.fits_of_evaluate`**: so do the units of all literals of a tree.
* **`Expression.family_of_run`**: a tree has literals of one family only, or fails.
-/

namespace LineCalc

/-! ## Units that fit -/

namespace MeasureUnit

/-- Whether amounts in the unit are of some family: all but plain numbers and percentages are. -/
def isDimensional (u : MeasureUnit) : Bool :=
  !u.isUnitless && !u.isPercent

theorem isDimensional_congr {u v : MeasureUnit} (h : u.family = v.family) :
    u.isDimensional = v.isDimensional := by
  simp only [isDimensional, isUnitless, isPercent, h]

/-- The unit is of the family of the other one, if amounts in it are of any. -/
def Fits (u v : MeasureUnit) : Prop :=
  u.isDimensional = true → u.family = v.family

namespace Fits

theorem of_isUnitless {u : MeasureUnit} (h : u.isUnitless = true) (v : MeasureUnit) : u.Fits v := by
  intro hdimensional
  simp [isDimensional, h] at hdimensional

theorem of_isPercent {u : MeasureUnit} (h : u.isPercent = true) (v : MeasureUnit) : u.Fits v := by
  intro hdimensional
  simp [isDimensional, h] at hdimensional

theorem refl (u : MeasureUnit) : u.Fits u :=
  fun _ => rfl

theorem trans {u v w : MeasureUnit} (huv : u.Fits v) (hvw : v.Fits w) : u.Fits w := by
  intro hu
  have hfamily : u.family = v.family := huv hu
  have hv : v.isDimensional = true := by rwa [← isDimensional_congr hfamily]
  exact hfamily.trans (hvw hv)

end Fits

end MeasureUnit

/-! ## What an operation keeps -/

theorem Quantity.fits_of_convertTo {q converted : Quantity} {target : MeasureUnit}
    (h : q.convertTo target = .ok converted) : q.unit.Fits target := by
  unfold convertTo at h
  split at h
  · rename_i hsame
    exact fun _ => (MeasureUnit.sameAs_iff.1 hsame).1
  split at h
  · rename_i hunitless
    exact .of_isUnitless hunitless target
  · obtain ⟨value, hvalue, _⟩ := map_eq_ok.1 h
    unfold convertDecimal at hvalue
    split at hvalue
    · rename_i hconvertible
      exact fun _ => beq_iff_eq.1 hconvertible
    · cases hvalue

theorem Arithmetic.fits_of_align {op : Arithmetic} {a b : Quantity} {x y : Decimal}
    {u : MeasureUnit} (h : op.align a b = .ok (x, y, u)) : a.unit.Fits u ∧ b.unit.Fits u := by
  unfold align at h
  split at h
  · cases h
  split at h
  · -- a plain number takes the unit on its right
    rename_i hadopts
    cases h
    rw [Bool.and_eq_true] at hadopts
    exact ⟨.of_isUnitless hadopts.1 _, .refl _⟩
  split at h <;> cases h
  rename_i hconverted
  exact ⟨.refl _, Quantity.fits_of_convertTo hconverted⟩

/-- The units of both operands fit the unit of the result. -/
theorem Arithmetic.fits_of_onQuantities {op : Arithmetic} {a b q : Quantity}
    (h : op.onQuantities a b = .ok q) : a.unit.Fits q.unit ∧ b.unit.Fits q.unit := by
  unfold onQuantities at h
  split at h
  · -- a share of the left operand is in its unit
    rename_i hrelative
    rw [Bool.and_eq_true] at hrelative
    rw [unit_of_relative h]
    exact ⟨.refl _, .of_isPercent hrelative.1 _⟩
  · simp only [bind_eq_ok, pure_eq_ok] at h
    obtain ⟨⟨x, y, u⟩, halign, value, _, rfl⟩ := h
    exact fits_of_align halign

/-! ## Trees of arithmetic -/

namespace Expression

/-- Trees of literals with signs and the four operators. -/
inductive IsArithmetic : Expression → Prop where
  | number (value : Decimal) (unit : Option MeasureUnit) : IsArithmetic (.number value unit)
  | negate {op : UnaryOperator} {operand : Expression} (hop : op.operation = .negate)
      (hoperand : IsArithmetic operand) : IsArithmetic (.prefixed op operand)
  | arithmetic {op : BinaryOperator} {a : Arithmetic} {left right : Expression}
      (hop : op.operation = .arithmetic a) (hleft : IsArithmetic left)
      (hright : IsArithmetic right) : IsArithmetic (.infixed op left right)

/-- The units of the literals of a tree of arithmetic, from left to right. -/
def literalUnits : Expression → List MeasureUnit
  | .number _ unit => [unit.getD .unitless]
  | .prefixed _ operand => operand.literalUnits
  | .infixed _ left right => left.literalUnits ++ right.literalUnits
  | _ => []

variable {units : Registry} {e : Expression}

/-- A tree of arithmetic gives a quantity, whose unit all units in the tree fit. -/
theorem fits_of_evaluate (hshape : e.IsArithmetic) {env after : Environment} {v : Value}
    (h : e.evaluate units env = (after, .ok v)) :
    ∃ q, v = .number q ∧ ∀ u ∈ e.literalUnits, u.Fits q.unit := by
  -- induction on the tree: what fits the unit of an operand fits the unit of the result
  induction hshape generalizing env after v with
  | number value unit =>
    cases unit with
    | none =>
      cases h
      exact ⟨⟨value, .unitless⟩, rfl, by simp [literalUnits, MeasureUnit.Fits.refl]⟩
    | some unit =>
      cases h
      exact ⟨⟨value, unit⟩, rfl, by simp [literalUnits, MeasureUnit.Fits.refl]⟩
  | negate hop _ ih =>
    obtain ⟨_, x, hx, h⟩ := Outcome.andThen_eq_ok.1 h
    obtain ⟨q, rfl, hq⟩ := ih hx
    rw [hop] at h
    cases h
    exact ⟨⟨q.value.neg, q.unit⟩, rfl, hq⟩
  | @arithmetic op a left right hop _ _ ihleft ihright =>
    obtain ⟨_, x, hx, h⟩ := Outcome.andThen_eq_ok.1 h
    obtain ⟨_, y, hy, h⟩ := Outcome.andThen_eq_ok.1 h
    obtain ⟨p, rfl, hp⟩ := ihleft hx
    obtain ⟨r, rfl, hr⟩ := ihright hy
    have hvalue : (a.onQuantities p r).map Value.number = .ok v := by
      rw [← BinaryOperation.apply_number a units, ← hop]
      exact (Prod.mk.inj h).2
    obtain ⟨q, hq, rfl⟩ := map_eq_ok.1 hvalue
    obtain ⟨hleft, hright⟩ := Arithmetic.fits_of_onQuantities hq
    refine ⟨q, rfl, fun u hu => ?_⟩
    rcases List.mem_append.1 hu with hu | hu
    · exact (hp u hu).trans hleft
    · exact (hr u hu).trans hright

/-- What a tree of arithmetic gives is the result of its plan. -/
theorem run_eq_evaluate (hshape : e.IsArithmetic) (env : Environment) :
    Machine.run units env e.postorder = e.evaluate units env := by
  have hsteps : Machine.steps units ⟨env, []⟩ (e.postorder ++ []) = _ :=
    Machine.steps_postorder e env [] []
  rw [List.append_nil] at hsteps
  rw [Machine.run, hsteps]
  rcases hvalue : e.evaluate units env with ⟨after, failure | v⟩
  · rfl
  · obtain ⟨q, rfl, _⟩ := fits_of_evaluate hshape hvalue
    rfl

/--
Dimensions are kept: when the plan of a tree of arithmetic gives something, it is a quantity, and
every literal that is neither a plain number nor a percentage is of its family. So a plain number or
a percentage comes of such literals alone, and literals of two families fail wherever they stand.
-/
theorem family_of_run (units : Registry) (env : Environment) (hshape : e.IsArithmetic) :
    (∀ v, (Machine.run units env e.postorder).2 = .ok v →
      ∃ q, v = .number q ∧
        (∀ u ∈ e.literalUnits, u.isDimensional = true → u.family = q.unit.family) ∧
        (q.unit.isDimensional = false → ∀ u ∈ e.literalUnits, u.isDimensional = false)) ∧
      ∀ u ∈ e.literalUnits, ∀ w ∈ e.literalUnits, u.isDimensional = true →
        w.isDimensional = true → u.family ≠ w.family →
        ∃ failure, (Machine.run units env e.postorder).2 = .error failure := by
  have hgives : ∀ v, (Machine.run units env e.postorder).2 = .ok v →
      ∃ q, v = .number q ∧ ∀ u ∈ e.literalUnits, u.Fits q.unit := by
    intro v hv
    rw [run_eq_evaluate hshape] at hv
    exact fits_of_evaluate hshape (Prod.ext rfl hv)
  constructor
  · intro v hv
    obtain ⟨q, rfl, hfits⟩ := hgives v hv
    refine ⟨q, rfl, hfits, fun hplain u hu => ?_⟩
    cases hdimensional : u.isDimensional with
    | false => rfl
    | true =>
      -- the result would be an amount of the family of this literal
      have hsame := MeasureUnit.isDimensional_congr (hfits u hu hdimensional)
      rw [hdimensional, hplain] at hsame
      cases hsame
  · intro u hu w hw hudim hwdim hne
    cases hrun : (Machine.run units env e.postorder).2 with
    | error failure => exact ⟨failure, rfl⟩
    | ok v =>
      obtain ⟨q, rfl, hfits⟩ := hgives v hrun
      exact absurd ((hfits u hu hudim).trans (hfits w hw hwdim).symm) hne

/-- The tree of `2 cm * 50 % + (3 - amount)`. -/
def lengthAnd (amount : Expression) : Expression :=
  .infixed ⟨"+", 2, .left, false, .arithmetic .add⟩
    (.infixed ⟨"*", 3, .left, false, .arithmetic .multiply⟩
      (.number (.ofInt 2) (some (Standard.simpleUnit "length" "cm" .ten [])))
      (.number (.ofInt 50) (some .percent)))
    (.infixed ⟨"-", 2, .left, false, .arithmetic .subtract⟩ (.number (.ofInt 3) none) amount)

/-- With 1 mm it is a length, and with 1 kg it fails. -/
theorem family_of_run_lengthAnd :
    (∃ q, (Machine.run .empty (.fresh default) (lengthAnd (.number .one
        (some (Standard.simpleUnit "length" "mm" .one [])))).postorder).2 = .ok (.number q) ∧
      q.unit.family = "length") ∧
    ∃ failure, (Machine.run .empty (.fresh default) (lengthAnd (.number .one
      (some (Standard.simpleUnit "weight" "kg" .one [])))).postorder).2 = .error failure := by
  have hshape : ∀ unit, (lengthAnd (.number .one unit)).IsArithmetic := fun unit =>
    .arithmetic rfl (.arithmetic rfl (.number _ _) (.number _ _))
      (.arithmetic rfl (.number _ _) (.number _ _))
  constructor
  · have hsum : (Machine.run .empty (.fresh default) (lengthAnd (.number .one
        (some (Standard.simpleUnit "length" "mm" .one [])))).postorder).2.toOption =
        some (.number ⟨.ofScaled 120 2, Standard.simpleUnit "length" "cm" .ten []⟩) := by
      decide +kernel
    obtain ⟨q, hq, hfamily, _⟩ :=
      (family_of_run .empty (.fresh default) (hshape _)).1 _ (toOption_eq_some.1 hsum)
    refine ⟨q, hq ▸ toOption_eq_some.1 hsum, ?_⟩
    exact (hfamily (Standard.simpleUnit "length" "mm" .one [])
      (by simp [lengthAnd, literalUnits]) (by decide)).symm
  · exact (family_of_run .empty (.fresh default) (hshape _)).2
      (Standard.simpleUnit "length" "cm" .ten []) (by simp [lengthAnd, literalUnits])
      (Standard.simpleUnit "weight" "kg" .one []) (by simp [lengthAnd, literalUnits])
      (by decide) (by decide) (by decide)

end Expression

end LineCalc
