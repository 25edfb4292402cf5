import LineCalc.Proofs.Decimal.Order
import LineCalc.Proofs.RoundTrip

/-!
# Amounts in order

A conversion multiplies by a positive size and divides by one, and both results are rounded to a
number of places that shrinks as they grow. Amounts that are in order are in order afterwards, and
opposite amounts are opposite afterwards. The order can fail in one place only: two amounts whose
products with the size of the first unit are one number, written in two ways, and that number over
the size of the second unit is a half, which the long division takes down for the one and up for the
other.

* **`convertDecimal_neg`**: the opposite amount is converted into the opposite.
* **`convertDecimal_order`**: amounts in order are converted in order, but for such a half.
-/

namespace LineCalc

variable {a b : MeasureUnit} {v x : Decimal}

/-- The opposite amount is converted into the opposite, and fails for the same reason. -/
theorem convertDecimal_neg (v : Decimal) (a b : MeasureUnit) :
    convertDecimal v.neg a b = (convertDecimal v a b).map Decimal.neg := by
  unfold convertDecimal
  split
  · split
    · rfl
    · rw [Decimal.neg_mul?]
      cases v.mul? a.multiplier with
      | none => rfl
      | some product =>
        simp only [Option.map_some, Option.bind_some, Decimal.neg_div?]
        cases product.div? b.multiplier <;> rfl
  · rfl

theorem eq_of_convertDecimal_eq_ok (hsame : a.multiplier.sameNumber b.multiplier = true)
    (h : convertDecimal v a b = .ok x) : x = v := by
  unfold convertDecimal at h
  rw [if_pos hsame] at h
  split at h
  · cases h
    rfl
  · cases h

theorem exists_mul?_of_convertDecimal_eq_ok (hother : ¬ a.multiplier.sameNumber b.multiplier = true)
    (h : convertDecimal v a b = .ok x) :
    ∃ product, v.mul? a.multiplier = some product ∧ product.div? b.multiplier = some x := by
  rcases convertDecimal_eq_ok h with ⟨hsame, -⟩ | hproduct
  · exact absurd (Decimal.sameNumber_iff_toRat.2 hsame) hother
  · exact hproduct

/--
Opposite amounts are converted into opposite amounts, or neither can be. Amounts in order are
converted in order, at every number of places and on either side of zero. The exception is a divisor
of more than 64 bits and two amounts whose products are the same number: their quotient is a half of
the last place, which is taken to both of its neighbours.
-/
theorem convertDecimal_order (a b : MeasureUnit) :
    (∀ v, convertDecimal v.neg a b = (convertDecimal v a b).map Decimal.neg) ∧
    ∀ v w x y, 0 < a.multiplier.toRat → 0 < b.multiplier.toRat → v.le w = true →
      convertDecimal v a b = .ok x → convertDecimal w a b = .ok y →
      x.le y = true ∨ (Decimal.wordBound ≤ b.multiplier.mantissa.natAbs ∧
        ∃ product product', v.mul? a.multiplier = some product ∧
          w.mul? a.multiplier = some product' ∧ product.sameNumber product' = true ∧
          Decimal.Halfway y (product.toRat / b.multiplier.toRat) x) := by
  refine ⟨fun v => convertDecimal_neg v a b, fun v w x y ha hb hle hx hy => ?_⟩
  by_cases hsame : a.multiplier.sameNumber b.multiplier = true
  · rw [eq_of_convertDecimal_eq_ok hsame hx, eq_of_convertDecimal_eq_ok hsame hy]
    exact .inl hle
  · obtain ⟨product, hproduct, hquotient⟩ := exists_mul?_of_convertDecimal_eq_ok hsame hx
    obtain ⟨product', hproduct', hquotient'⟩ := exists_mul?_of_convertDecimal_eq_ok hsame hy
    have hproducts : product.toRat ≤ product'.toRat :=
      Decimal.mul?_le ha (Decimal.le_iff_toRat.1 hle) hproduct hproduct'
    rcases Decimal.div?_le_or_halfway hb hproducts hquotient hquotient' with
      hordered | ⟨hlong, hone, hhalf⟩
    · exact .inl (Decimal.le_iff_toRat.2 hordered)
    · exact .inr ⟨hlong, product, product', hproduct, hproduct',
        Decimal.sameNumber_iff_toRat.2 hone, hhalf⟩

/-- Two amounts of which the larger one has no room for the place that the smaller one has. -/
theorem convertDecimal_order_grids :
    let a : MeasureUnit := .make "length" "a" .one [] []
    let b : MeasureUnit := .make "length" "b" (.ofInt 3) [] []
    let v : Decimal := .ofInt 23768448754279301278063185100
    let w : Decimal := .ofInt 23768448754279301278063185101
    let x : Decimal := .ofScaled 79228162514264337593543950333 1
    let y : Decimal := .ofInt 7922816251426433759354395034
    convertDecimal v a b = .ok x ∧ convertDecimal w a b = .ok y ∧ x.le y = true := by
  intro a b v w x y
  have hx : convertDecimal v a b = .ok x := by decide +kernel
  have hy : convertDecimal w a b = .ok y := by decide +kernel
  refine ⟨hx, hy, ?_⟩
  obtain ⟨-, hordered⟩ := convertDecimal_order a b
  rcases hordered v w x y (by decide +kernel) (by decide +kernel) (by decide) hx hy with
    hle | ⟨hlong, -⟩
  · exact hle
  · exact absurd hlong (by decide)

/--
A number and one that is larger by a thousandth. Three times either of them is the same number,
written as an integer and with two places, and a half of the last place goes up for the first and
down for the second.
-/
example :
    let a : MeasureUnit := .make "length" "a" (.ofInt 3) [] []
    let b : MeasureUnit := .make "length" "b" (.ofInt 160000000000000000000) [] []
    let v : Decimal := .ofInt 42255020007607646716556775
    let w : Decimal := .ofScaled 42255020007607646716556775001 3
    convertDecimal v a b = .ok (.ofScaled 7922816251426433759354395313 22) ∧
      convertDecimal w a b = .ok (.ofScaled 7922816251426433759354395312 22) := by
  decide +kernel

end LineCalc
