import LineCalc.Proofs.Decimal.Nearest

/-!
# Numbers within bounds

Numbers of so many decimal places up to a bound stay such numbers, of more places or up to a larger
bound, when they are added, subtracted, multiplied and divided by a hundred. Where the digits of a
result fit, the operation that gives it rounds nothing.

* **`Within`**: numbers of a grid up to a bound.
* **`Within.add`**, **`Within.mul`** and their siblings: what the operations lead to.
* **`Within.exists_exact`**: a result that fits is exact.
-/

namespace LineCalc

open Decimal

/-- A number of so many places, up to a bound on either side of zero. -/
structure Within (places : Nat) (bound x : ℚ) : Prop where
  grid : HasPlaces places x
  size : |x| ≤ bound

theorem cast_mantissaBound : (mantissaBound : ℚ) = 2 ^ 96 := by
  norm_num [mantissaBound]

namespace Within

variable {places more : Nat} {bound limit x y z : ℚ}

theorem mono (hx : Within places bound x) (hplaces : places ≤ more) (hbound : bound ≤ limit) :
    Within more limit x :=
  ⟨hx.grid.mono hplaces, hx.size.trans hbound⟩

theorem neg (hx : Within places bound x) : Within places bound (-x) where
  grid := hx.grid.neg
  size := by rw [abs_neg]; exact hx.size

theorem add (hx : Within places bound x) (hy : Within places limit y) :
    Within places (bound + limit) (x + y) where
  grid := hx.grid.add hy.grid
  size := (abs_add_le x y).trans (add_le_add hx.size hy.size)

theorem sub (hx : Within places bound x) (hy : Within places limit y) :
    Within places (bound + limit) (x - y) := by
  rw [sub_eq_add_neg]
  exact hx.add hy.neg

theorem mul (hx : Within places bound x) (hy : Within more limit y) :
    Within (places + more) (bound * limit) (x * y) where
  grid := hx.grid.mul hy.grid
  size := by
    rw [abs_mul]
    exact mul_le_mul hx.size hy.size (abs_nonneg y) ((abs_nonneg x).trans hx.size)

theorem div_pow (hx : Within places bound x) (count : Nat) :
    Within (places + count) (bound / 10 ^ count) (x / 10 ^ count) where
  grid := hx.grid.div_pow count
  size := by
    have hpow := ten_pow_pos count
    rw [abs_div, abs_of_pos hpow]
    exact div_le_div_of_nonneg_right hx.size hpow.le

theorem div_hundred (hx : Within places bound x) :
    Within (places + 2) (bound / 100) (x / 100) := by
  have hhundred : (100 : ℚ) = 10 ^ 2 := by norm_num
  rw [hhundred]
  exact hx.div_pow 2

/-! ## Operations that round nothing -/

/-- A number whose digits fit with the places that it needs is kept by every operation. -/
theorem map_toRat_nearest? (hz : Within places bound z) (hplaces : places ≤ maxScale)
    (hfits : bound * 10 ^ places < mantissaBound) (mode : Rounding) :
    (nearest? mode z maxScale).map toRat = some z := by
  apply map_toRat_nearest?_of_lt hplaces hz.grid
  exact (mul_le_mul_of_nonneg_right hz.size (ten_pow_pos places).le).trans_lt hfits

/-- The result of an operation that is to give such a number is that number. -/
theorem exists_exact (hz : Within places bound z) (hplaces : places ≤ maxScale)
    (hfits : bound * 10 ^ places < mantissaBound) {d : Option Decimal} {mode : Rounding}
    (h : d.map toRat = (nearest? mode z maxScale).map toRat) : ∃ r, d = some r ∧ r.toRat = z := by
  rw [hz.map_toRat_nearest? hplaces hfits] at h
  exact Option.map_eq_some_iff.1 h

end Within

end LineCalc
