import LineCalc.Decimal.Basic

/-!
# Arithmetic on decimals

A sum, a difference or a product is computed exactly, as a quotient of integers, and brought back
into range by one rule: it takes the largest number of places, up to a limit that the operation
sets, at which its mantissa rounded half to even stays below 2^96. Where no number of places will
do, the result is too large and there is none. Adding zero changes neither the number nor the way
it is written.
-/

namespace LineCalc.Decimal

/-- The decimal that stands for `num / den`, with at most as many places as the limit allows. -/
def fit? (mode : Rounding) (num : Int) (den : Nat) : Nat → Option Decimal
  | 0 => ofScaled? (mode.divide num den) 0
  | places + 1 =>
    match ofScaled? (mode.divide (num * pow10 (places + 1)) den) (places + 1) with
    | some d => some d
    | none => fit? mode num den places

/-- The sum, to at most as many places as the operands have. -/
def add? (a b : Decimal) : Option Decimal :=
  if a.isZero then some b
  else if b.isZero then some a
  else
    fit? .halfEven (a.mantissa * pow10 b.scale + b.mantissa * pow10 a.scale)
      (pow10 (a.scale + b.scale)) (max a.scale b.scale)

/-- The difference, to at most as many places as the operands have. -/
def sub? (a b : Decimal) : Option Decimal :=
  a.add? b.neg

/-- The product, to at most as many places as the operands have together. -/
def mul? (a b : Decimal) : Option Decimal :=
  if a.isZero || b.isZero then some zero
  else
    fit? .halfEven (a.mantissa * b.mantissa) (pow10 (a.scale + b.scale))
      (min maxScale (a.scale + b.scale))

/-- The number rounded to at most `places` decimal places, unchanged if it has no more. -/
def roundTo (d : Decimal) (places : Nat) (mode : Rounding) : Decimal :=
  if h : d.scale ≤ places then d
  else
    ofScaled (mode.divide d.mantissa (pow10 (d.scale - places))) places
      (Nat.lt_of_le_of_lt
        (mode.natAbs_divide_le d.mantissa (pow10_pos _)) d.mantissa_lt)
      (Nat.le_trans (Nat.le_of_lt (Nat.lt_of_not_le h)) d.scale_le)

/-- The integer part, toward zero. -/
def truncate (d : Decimal) : Int :=
  Rounding.towardZero.divide d.mantissa (pow10 d.scale)

theorem roundTo_of_scale_le {d : Decimal} {places : Nat} (h : d.scale ≤ places)
    (mode : Rounding) : d.roundTo places mode = d := by
  simp [roundTo, h]

theorem scale_roundTo_le (d : Decimal) (places : Nat) (mode : Rounding) :
    (d.roundTo places mode).scale ≤ places := by
  unfold roundTo
  split
  · assumption
  · exact Nat.le_refl places

end LineCalc.Decimal
