import LineCalc.Decimal.Arithmetic

/-!
# Division of decimals

Where the divisor's mantissa goes into the dividend's, the quotient is that of the mantissas and
has the places by which the dividend's exceed the divisor's.

Any other quotient is a long division that takes a block of digits at a time: at most nine, and no
more than the mantissa has room for below 2^96 and the places have below 28. It stops when nothing
is left over, when there is no room for a digit, or when the last block has carried the mantissa
past 2^96. The quotient is then brought into range by the rule of the other operations, with the
places that the division has reached as the limit. A half goes to the even neighbour, unless the
last block went past 2^96 by a divisor of more than 64 bits: there it goes away from zero when the
rest that the block divided is longer in binary than the divisor. Last, zeros at the end of the
fraction are given up, block by block.
-/

namespace LineCalc.Decimal

/-- Divisors below this bound, 2^64, are divided by in one word. -/
def wordBound : Nat := Nat.pow 2 64

/-- The most digits that one block of a quotient has. -/
def blockDigits : Nat := 9

/-- How many digits, up to a limit, can follow a mantissa that is to stay below 2^96. -/
def room (mantissa : Nat) : Nat → Nat
  | 0 => 0
  | digits + 1 =>
    if mantissa * pow10 (digits + 1) < mantissaBound then digits + 1 else room mantissa digits

theorem room_le (mantissa limit : Nat) : room mantissa limit ≤ limit := by
  induction limit with
  | zero => exact Nat.le_refl 0
  | succ digits ih =>
    unfold room
    split
    · exact Nat.le_refl _
    · exact Nat.le_succ_of_le ih

/-- How a half is rounded by the block of a quotient that divides `rest` and goes past 2^96. -/
def overshootMode (divisor rest : Nat) : Rounding :=
  if wordBound ≤ divisor ∧ divisor.log2 < rest.log2 then .halfAway else .halfEven

/--
Where a long division stops, with the quotient so far, what it leaves over, and how many more places
are allowed: the number of places that are then left, and how a half is rounded.
-/
def stop (divisor quotient remainder left : Nat) : Nat × Rounding :=
  let block := room quotient (min blockDigits left)
  if remainder = 0 then (left, .halfEven)
  else if block = 0 then (left, .halfEven)
  else
    let rest := remainder * pow10 block
    let next := quotient * pow10 block + rest / divisor
    if next < mantissaBound then stop divisor next (rest % divisor) (left - block)
    else (left - block, overshootMode divisor rest)
termination_by left
decreasing_by
  have hle : block ≤ min blockDigits left := room_le _ _
  omega

/-- The number without `count` zeros at the end of the fraction, if they are there. -/
def dropBlock (d : Decimal) (count : Nat) : Decimal :=
  if count ≤ d.scale ∧ d.mantissa % pow10 count = 0 then
    { mantissa := d.mantissa / pow10 count
      scale := d.scale - count
      mantissa_lt := Nat.lt_of_le_of_lt (Int.natAbs_ediv_le_natAbs _ _) d.mantissa_lt
      scale_le := Nat.le_trans (Nat.sub_le _ _) d.scale_le }
  else d

theorem sameNumber_dropBlock (d : Decimal) (count : Nat) :
    (d.dropBlock count).sameNumber d = true := by
  unfold dropBlock
  split
  · rename_i h
    have hm : d.mantissa / pow10 count * pow10 count = d.mantissa :=
      Int.ediv_mul_cancel (Int.dvd_of_emod_eq_zero h.2)
    have hs : pow10 d.scale = pow10 (d.scale - count) * pow10 count := by
      rw [← pow10_add, Nat.sub_add_cancel h.1]
    rw [sameNumber_iff]
    calc d.mantissa / pow10 count * pow10 d.scale
        = d.mantissa / pow10 count * pow10 count * pow10 (d.scale - count) := by
          rw [hs, Int.natCast_mul, ← Int.mul_assoc, Int.mul_right_comm]
      _ = d.mantissa * pow10 (d.scale - count) := by rw [hm]
  · exact d.sameNumber_refl

/-- How many mantissas the last 32 bits tell apart, 2^32. -/
def halfWordBound : Int := 4294967296

/-- Gives up eight zeros, at most so many times, while the last 32 bits of the mantissa are zero. -/
def dropEights : Nat → Decimal → Decimal
  | 0, d => d
  | times + 1, d =>
    if d.mantissa % halfWordBound = 0 then dropEights times (d.dropBlock 8) else d

/--
The number with fewer zeros at the end of the fraction: without blocks of eight as far as the last
32 bits of the mantissa allow, of which 28 places hold three, and then without four, two and one.
-/
def shorten (d : Decimal) : Decimal :=
  (((dropEights 3 d).dropBlock 4).dropBlock 2).dropBlock 1

theorem sameNumber_dropEights (times : Nat) (d : Decimal) :
    (dropEights times d).sameNumber d = true := by
  induction times generalizing d with
  | zero => exact d.sameNumber_refl
  | succ times ih =>
    unfold dropEights
    split
    · exact sameNumber_trans (ih (d.dropBlock 8)) (d.sameNumber_dropBlock 8)
    · exact d.sameNumber_refl

theorem sameNumber_shorten (d : Decimal) : d.shorten.sameNumber d = true :=
  sameNumber_trans (sameNumber_dropBlock _ 1) <|
    sameNumber_trans (sameNumber_dropBlock _ 2) <|
      sameNumber_trans (sameNumber_dropBlock _ 4) (sameNumber_dropEights 3 d)

/-- The quotient, to at most 28 places. There is none by zero. -/
def div? (a b : Decimal) : Option Decimal :=
  if b.isZero then none
  else if a.isZero then some zero
  else if a.mantissa % b.mantissa = 0 then
    ofScaled? (a.mantissa / b.mantissa * pow10 (b.scale - a.scale)) (a.scale - b.scale)
  else
    let (left, mode) :=
      stop b.mantissa.natAbs (a.mantissa.natAbs / b.mantissa.natAbs)
        (a.mantissa.natAbs % b.mantissa.natAbs) (maxScale + b.scale - a.scale)
    (fit? mode (a.mantissa * pow10 b.scale * b.mantissa.sign) (b.mantissa.natAbs * pow10 a.scale)
      (maxScale - left)).map shorten

end LineCalc.Decimal
