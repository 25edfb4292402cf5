import LineCalc.Decimal.PowerOfTen
import LineCalc.Decimal.Rounding

/-!
# Decimal numbers

A decimal is an integer mantissa below 2^96 over a power of ten of at most 28. Zeros at the end of
the fraction are kept: `1.5` and `1.50` are two decimals that denote the same number, and division
tells them apart. Numbers are compared by `compare` and `sameNumber`, and `normalize` gives each
number its shortest form. Zero has no sign.
-/

namespace LineCalc

/-- Mantissas stay below this bound, 2^96. -/
def mantissaBound : Nat := Nat.pow 2 96

/-- The most decimal places a decimal has. -/
def maxScale : Nat := 28

/-- The number `mantissa / 10 ^ scale`. -/
structure Decimal where
  /-- All digits as one integer, with the sign. -/
  mantissa : Int
  /-- How many of the digits stand after the point. -/
  scale : Nat
  /-- The digits fit in 96 bits. -/
  mantissa_lt : mantissa.natAbs < mantissaBound
  /-- At most 28 digits stand after the point. -/
  scale_le : scale ≤ maxScale
  deriving DecidableEq

namespace Decimal

/-- A mantissa and its scale without the zeros at the end of the fraction. -/
def dropZeros (mantissa : Int) : Nat → Int × Nat
  | 0 => (mantissa, 0)
  | scale + 1 =>
    if mantissa % 10 = 0 then dropZeros (mantissa / 10) scale else (mantissa, scale + 1)

theorem natAbs_dropZeros_le (m : Int) (s : Nat) : (dropZeros m s).1.natAbs ≤ m.natAbs := by
  induction s generalizing m with
  | zero => simp [dropZeros]
  | succ s ih =>
    unfold dropZeros
    split
    · have := ih (m / 10)
      omega
    · simp

theorem scale_dropZeros_le (m : Int) (s : Nat) : (dropZeros m s).2 ≤ s := by
  induction s generalizing m with
  | zero => simp [dropZeros]
  | succ s ih =>
    unfold dropZeros
    split
    · have := ih (m / 10)
      omega
    · simp

theorem reduced_dropZeros (m : Int) (s : Nat) :
    (dropZeros m s).2 = 0 ∨ (dropZeros m s).1 % 10 ≠ 0 := by
  induction s generalizing m with
  | zero => simp [dropZeros]
  | succ s ih =>
    unfold dropZeros
    split
    · exact ih (m / 10)
    · rename_i h
      exact Or.inr h

theorem dropZeros_mul_pow10 (m : Int) (s : Nat) :
    (dropZeros m s).1 * pow10 s = m * pow10 (dropZeros m s).2 := by
  induction s generalizing m with
  | zero => simp [dropZeros]
  | succ s ih =>
    unfold dropZeros
    split
    · rename_i h
      have hm : m / 10 * 10 = m := Int.ediv_mul_cancel (Int.dvd_of_emod_eq_zero h)
      rw [pow10_succ, Int.natCast_mul, ← Int.mul_assoc, ih, Int.mul_right_comm]
      exact congrArg (· * _) hm
    · rfl

/-- The decimal `mantissa / 10 ^ scale`. -/
def ofScaled (mantissa : Int) (scale : Nat)
    (hm : mantissa.natAbs < mantissaBound := by decide) (hs : scale ≤ maxScale := by decide) :
    Decimal :=
  ⟨mantissa, scale, hm, hs⟩

/-- The decimal `mantissa / 10 ^ scale`, when the mantissa and the scale are in range. -/
def ofScaled? (mantissa : Int) (scale : Nat) : Option Decimal :=
  if h : mantissa.natAbs < mantissaBound ∧ scale ≤ maxScale then
    some (ofScaled mantissa scale h.1 h.2)
  else none

def ofInt (n : Int) (h : n.natAbs < mantissaBound := by decide) : Decimal where
  mantissa := n
  scale := 0
  mantissa_lt := h
  scale_le := Nat.zero_le _

def zero : Decimal := ofInt 0

def one : Decimal := ofInt 1

def ten : Decimal := ofInt 10

def hundred : Decimal := ofInt 100

/-- The powers of ten that a decimal reaches. -/
def powerOfTen (n : Nat) (h : n ≤ maxScale) : Decimal :=
  ofInt (pow10 n) (by
    rw [Int.natAbs_natCast]
    exact Nat.lt_of_le_of_lt (pow10_le_pow10 h) (by decide))

instance : Inhabited Decimal := ⟨zero⟩

def isZero (d : Decimal) : Bool :=
  d.mantissa == 0

def isNegative (d : Decimal) : Bool :=
  d.mantissa < 0

/-- The number with the opposite sign. -/
def neg (d : Decimal) : Decimal where
  mantissa := -d.mantissa
  scale := d.scale
  mantissa_lt := by
    have := d.mantissa_lt
    omega
  scale_le := d.scale_le

def abs (d : Decimal) : Decimal :=
  if d.isNegative then d.neg else d

/-- The order of the numbers denoted, by their numerators over a common power of ten. -/
def compare (a b : Decimal) : Ordering :=
  Ord.compare (a.mantissa * pow10 b.scale) (b.mantissa * pow10 a.scale)

def le (a b : Decimal) : Bool :=
  (a.compare b).isLE

def lt (a b : Decimal) : Bool :=
  (a.compare b).isLT

/-- Whether two decimals denote the same number. -/
def sameNumber (a b : Decimal) : Bool :=
  a.mantissa * pow10 b.scale == b.mantissa * pow10 a.scale

/-- Two decimals denote the same number when their numerators over a common power of ten agree. -/
theorem sameNumber_iff {a b : Decimal} :
    a.sameNumber b = true ↔ a.mantissa * pow10 b.scale = b.mantissa * pow10 a.scale :=
  beq_iff_eq

theorem sameNumber_refl (a : Decimal) : a.sameNumber a = true :=
  sameNumber_iff.2 rfl

theorem sameNumber_trans {a b c : Decimal} (hab : a.sameNumber b = true)
    (hbc : b.sameNumber c = true) : a.sameNumber c = true := by
  rw [sameNumber_iff] at *
  have hpos : (pow10 b.scale : Int) ≠ 0 := by
    have := pow10_pos b.scale
    omega
  refine Int.eq_of_mul_eq_mul_right hpos ?_
  calc a.mantissa * pow10 c.scale * pow10 b.scale
      = a.mantissa * pow10 b.scale * pow10 c.scale := Int.mul_right_comm _ _ _
    _ = b.mantissa * pow10 c.scale * pow10 a.scale := by rw [hab, Int.mul_right_comm]
    _ = c.mantissa * pow10 a.scale * pow10 b.scale := by rw [hbc, Int.mul_right_comm]

/-- The same number with as few places as it needs. -/
def normalize (d : Decimal) : Decimal where
  mantissa := (dropZeros d.mantissa d.scale).1
  scale := (dropZeros d.mantissa d.scale).2
  mantissa_lt := Nat.lt_of_le_of_lt (natAbs_dropZeros_le d.mantissa d.scale) d.mantissa_lt
  scale_le := Nat.le_trans (scale_dropZeros_le d.mantissa d.scale) d.scale_le

theorem sameNumber_normalize (d : Decimal) : d.normalize.sameNumber d = true :=
  beq_iff_eq.2 (dropZeros_mul_pow10 d.mantissa d.scale)

theorem reduced_normalize (d : Decimal) :
    d.normalize.scale = 0 ∨ d.normalize.mantissa % 10 ≠ 0 :=
  reduced_dropZeros d.mantissa d.scale

theorem scale_normalize_le (d : Decimal) : d.normalize.scale ≤ d.scale :=
  scale_dropZeros_le d.mantissa d.scale

theorem ext_parts {a b : Decimal} (hm : a.mantissa = b.mantissa) (hs : a.scale = b.scale) :
    a = b := by
  cases a
  cases b
  simp_all

theorem neg_neg (d : Decimal) : d.neg.neg = d :=
  ext_parts (by simp [neg]) rfl

end Decimal

end LineCalc
