import LineCalc.Operation
import LineCalc.Proofs.Decimal.Order
import LineCalc.Proofs.Totals

/-!
# Divisions without a check

Some divisions are made without a check, because their divisor is at least one: a hundred, the
length of a run that has something in it, the nanoseconds of a millisecond, a power of ten. If such a
divisor were zero or such a quotient too large, this would not be an error of the line but the end
of the program. Here the operations are written with such divisions, and they are the operations of
the library: none of them ever ends that way.

* **`divideUnchecked`**: a division that ends the program where there is no quotient.
* **`divideUnchecked_eq_crash_iff`**: the divisor is zero, or the rounded quotient is 2^96 or more.
* **`exists_divideUnchecked`**: by at least one, there is a quotient.
* **`NeverCrashes`**: an operation with such divisions does what the one that checks them does.
* **`neverCrashes_operations`**: percentages, means, moved dates and rounding functions never crash.
-/

namespace LineCalc

/-- How an operation with unchecked divisions ends without a result. -/
inductive Fault where
  | error (e : EvalError)
  /-- The end of the program. -/
  | crash
  deriving DecidableEq

/-- The result of an operation that makes no unchecked division. -/
def checked {α : Type} (result : Except EvalError α) : Except Fault α :=
  result.mapError .error

/-- The decimal that a value of some other type has to be. -/
def unchecked (d : Option Decimal) : Except Fault Decimal :=
  match d with
  | some d => .ok d
  | none => .error .crash

/-- A quotient; a divisor that is zero, and a quotient that is too large, end the program. -/
def divideUnchecked (a b : Decimal) : Except Fault Decimal :=
  if b.isZero then .error .crash else unchecked (a.div? b)

/-! ## The operations with their unchecked divisions -/

namespace Arithmetic

/-- Applies a percentage: hundredths are taken without a check. -/
def relativeUnchecked (op : Arithmetic) (base : Quantity) (percent : Decimal) :
    Except Fault Quantity := do
  let product ← checked (inRange (base.value.mul? percent))
  let share ← divideUnchecked product .hundred
  let value ←
    match op with
    | add => checked (inRange (base.value.add? share))
    | subtract => checked (inRange (base.value.sub? share))
    | multiply => pure share
    | divide =>
      if percent.isZero then throw (.error .divisionByZero)
      else
        let factor ← divideUnchecked percent .hundred
        checked (inRange (base.value.div? factor))
  pure { base with value }

end Arithmetic

/-- The mean of a run, whose length is a decimal that divides the total without a check. -/
def runAverageUnchecked (run : List Quantity) : Except Fault Quantity :=
  match runTotal run with
  | none => .ok ⟨.zero, .unitless⟩
  | some total => do
    let count ← unchecked (Decimal.ofScaled? run.length 0)
    let value ← divideUnchecked total.value count
    pure { total with value }

theorem nanosPerMilli_lt : (nanosPerMilli : Int).natAbs < mantissaBound := by
  decide

/-- The whole milliseconds of a duration: nanoseconds are divided without a check. -/
def durationMillisUnchecked (offset : Quantity) : Except Fault Int := do
  let nanos ← checked (inRange (offset.value.mul? offset.unit.multiplier))
  let millis ← divideUnchecked nanos (.ofInt nanosPerMilli nanosPerMilli_lt)
  let whole := millis.truncate
  if -millisBound ≤ whole ∧ whole < millisBound then pure whole else throw (.error .overflow)

/-- A date moved by a duration. -/
def shiftUnchecked (date : Value) (offset : Quantity) (backward : Bool) : Except Fault Value :=
  match date with
  | .moment instant hasTime => do
    if offset.unit.family ≠ MeasureUnit.durationFamily then
      throw (.error (.notDuration offset.unit.singular))
    let millis ← durationMillisUnchecked offset
    checked (shiftBy instant hasTime (if backward then -millis else millis))
  | other => .error (.error (.expectsDate other.kind))

namespace RoundFunction

/-- Ten multiplied by itself, one factor after the other. -/
def tens? : Nat → Option Decimal
  | 0 => some .one
  | power + 1 => (tens? power).bind (·.mul? .ten)

/-- A number rounded to a multiple of a power of ten, by which it is divided without a check. -/
def toPowerUnchecked (f : RoundFunction) (value : Decimal) (power : Nat) :
    Except Fault Decimal := do
  let factor ← checked (inRange (tens? power))
  let scaled ← divideUnchecked value factor
  checked (inRange ((scaled.roundTo 0 f.mode).mul? factor))

/-- A number rounded to so many decimal places. -/
def onDecimalUnchecked (f : RoundFunction) (value : Decimal) (places : Int) :
    Except Fault Decimal :=
  if 0 ≤ places then .ok (value.roundTo places.toNat f.mode)
  else if (-places).toNat ≤ maxScale then f.toPowerUnchecked value (-places).toNat
  else if f.vanishes value (-places).toNat then .ok .zero
  else .error (.error .overflow)

end RoundFunction

/--
An operation with unchecked divisions has the result or the error of the operation that checks each
of them, and no division ends the program.
-/
def NeverCrashes {α : Type} (operation : Except Fault α) (result : Except EvalError α) : Prop :=
  operation = checked result ∧ operation ≠ .error .crash

/-! ## Divisors that are at least one -/

section Checked

variable {α β : Type}

theorem neverCrashes_of_eq {operation : Except Fault α} {result : Except EvalError α}
    (h : operation = checked result) : NeverCrashes operation result := by
  refine ⟨h, ?_⟩
  rw [h]
  cases result with
  | error e => exact fun hcrash => by cases hcrash
  | ok a => exact fun hcrash => by cases hcrash

@[simp] theorem checked_ok (a : α) : checked (.ok a) = .ok a := rfl

theorem checked_bind (result : Except EvalError α) (next : α → Except EvalError β) :
    checked (result >>= next) = checked result >>= fun a => checked (next a) := by
  cases result <;> rfl

end Checked

variable {a b : Decimal}

/-- What ends the program is a divisor that is zero, or a rounded quotient of 2^96 or more. -/
theorem divideUnchecked_eq_crash_iff :
    divideUnchecked a b = .error .crash ↔
      b.toRat = 0 ∨ Decimal.Overflows .halfEven (a.toRat / b.toRat) 0 := by
  unfold divideUnchecked
  split
  · rename_i hzero
    exact iff_of_true rfl (.inl (Decimal.isZero_iff_toRat.1 hzero))
  · rename_i hzero
    rw [Decimal.isZero_iff_toRat] at hzero
    obtain ⟨mode, hmode, -, hdiv⟩ := a.exists_isNearest_div? hzero
    have hnone : a.div? b = none ↔ Decimal.Overflows mode (a.toRat / b.toRat) 0 := by
      rw [← Decimal.nearest?_eq_none_iff hmode, ← Option.map_eq_none_iff, hdiv,
        Option.map_eq_none_iff]
    have hcrash : unchecked (a.div? b) = .error .crash ↔ a.div? b = none := by
      cases a.div? b with
      | none => exact iff_of_true rfl rfl
      | some q => exact iff_of_false (fun h => by cases h) (fun h => by cases h)
    rw [hcrash, hnone, or_iff_right hzero]
    exact ⟨fun h => h.congr hmode (.inl rfl), fun h => h.congr (.inl rfl) hmode⟩

/-- By at least one, there is a quotient. -/
theorem exists_divideUnchecked (a : Decimal) (hb : 1 ≤ |b.toRat|) :
    ∃ q, a.div? b = some q ∧ divideUnchecked a b = .ok q := by
  obtain ⟨q, hq⟩ := a.exists_div? hb
  refine ⟨q, hq, ?_⟩
  rw [divideUnchecked, Decimal.isZero_of_one_le hb, hq]
  rfl

theorem one_le_hundred : 1 ≤ |Decimal.hundred.toRat| := by
  norm_num [Decimal.toRat, Decimal.hundred, Decimal.ofInt]

theorem one_le_nanosPerMilli : 1 ≤ |(Decimal.ofInt nanosPerMilli nanosPerMilli_lt).toRat| := by
  norm_num [Decimal.toRat, Decimal.ofInt, nanosPerMilli]

/-! ## The divisions of each operation -/

theorem relativeUnchecked_eq (op : Arithmetic) (base : Quantity) (percent : Decimal) :
    op.relativeUnchecked base percent = checked (op.relative base percent) := by
  unfold Arithmetic.relativeUnchecked Arithmetic.relative
  cases hproduct : base.value.mul? percent with
  | none => rfl
  | some product =>
    obtain ⟨share, hshare, hhundredth⟩ := exists_divideUnchecked product one_le_hundred
    simp only [hhundredth, Option.bind_some, hshare, inRange, checked_ok, bind, Except.bind]
    cases op with
    | add => cases base.value.add? share <;> rfl
    | subtract => cases base.value.sub? share <;> rfl
    | multiply => rfl
    | divide =>
      obtain ⟨factor, hfactor, hunchecked⟩ := exists_divideUnchecked percent one_le_hundred
      simp only [hunchecked, Option.bind_some, hfactor]
      cases percent.isZero with
      | true => rfl
      | false => cases base.value.div? factor <;> rfl

theorem runAverageUnchecked_eq {run : List Quantity} (hlength : run.length < mantissaBound) :
    runAverageUnchecked run = checked (runAverage run) := by
  unfold runAverageUnchecked runAverage
  cases htotal : runTotal run with
  | none => rfl
  | some total =>
    obtain ⟨count, hcount, hone⟩ := exists_length hlength htotal
    obtain ⟨mean, hmean, hunchecked⟩ := exists_divideUnchecked total.value hone
    simp only [hcount, Option.bind_some, hmean, unchecked, hunchecked, bind, Except.bind]
    rfl

theorem durationMillisUnchecked_eq (offset : Quantity) :
    durationMillisUnchecked offset = checked (durationMillis offset) := by
  unfold durationMillisUnchecked durationMillis
  cases offset.value.mul? offset.unit.multiplier with
  | none => rfl
  | some nanos =>
    obtain ⟨millis, hmillis, hunchecked⟩ := exists_divideUnchecked nanos one_le_nanosPerMilli
    simp only [hmillis, inRange, checked_ok, hunchecked, bind, Except.bind]
    split <;> rfl

theorem shiftUnchecked_eq (date : Value) (offset : Quantity) (backward : Bool) :
    shiftUnchecked date offset backward = checked (shift date offset backward) := by
  cases date with
  | moment instant hasTime =>
    simp only [shiftUnchecked, shift, durationMillisUnchecked_eq]
    split
    · rfl
    · exact (checked_bind _ _).symm
  | _ => rfl

/-- One factor ten after the other, a power of ten is in range up to 10^28. -/
theorem tens?_eq {power : Nat} (h : power ≤ maxScale) :
    RoundFunction.tens? power = some (.powerOfTen power h) := by
  induction power with
  | zero => rfl
  | succ power ih =>
    have hfits : ((pow10 (power + 1) : Nat) : Int).natAbs < mantissaBound :=
      (Decimal.powerOfTen (power + 1) h).mantissa_lt
    have hnumerator : (pow10 power : Int) * 10 = (pow10 (power + 1) : Nat) * (1 : Nat) := by
      rw [pow10_succ, Nat.cast_mul, Nat.cast_one, mul_one]
      rfl
    have hzero : (Decimal.powerOfTen power (Nat.le_of_succ_le h)).isZero = false :=
      beq_eq_false_iff_ne.2 (Int.natCast_ne_zero.2 (pow10_pos power).ne')
    rw [RoundFunction.tens?, ih (Nat.le_of_succ_le h), Option.bind_some, Decimal.mul?, hzero]
    change Decimal.ofScaled? (Rounding.halfEven.divide ((pow10 power : Int) * 10) 1) 0 = _
    rw [hnumerator, Rounding.divide_mul_self _ _ Nat.one_pos,
      Decimal.ofScaled?_of_fits (Nat.zero_le _) hfits]
    rfl

theorem toPowerUnchecked_eq (f : RoundFunction) (value : Decimal) {power : Nat}
    (h : power ≤ maxScale) :
    f.toPowerUnchecked value power = checked (f.toPower value power h) := by
  obtain ⟨scaled, hscaled, hunchecked⟩ := exists_divideUnchecked value (Decimal.one_le_powerOfTen h)
  simp only [RoundFunction.toPowerUnchecked, RoundFunction.toPower, tens?_eq h, inRange, checked_ok,
    hunchecked, hscaled, bind, Except.bind]

theorem onDecimalUnchecked_eq (f : RoundFunction) (value : Decimal) (places : Int) :
    f.onDecimalUnchecked value places = checked (f.onDecimal value places) := by
  unfold RoundFunction.onDecimalUnchecked RoundFunction.onDecimal
  split
  · rfl
  split
  · rename_i hpower
    exact toPowerUnchecked_eq f value hpower
  · split <;> rfl

theorem length_numericRun_le (latestFirst : List Value) :
    (numericRun latestFirst).length ≤ latestFirst.length := by
  rw [numericRun, List.length_reverse]
  exact (List.length_filterMap_le _ _).trans (List.takeWhile_sublist _).length_le

/--
Percentages of any size, the mean of any history whose lines can be counted, a date moved by any
duration and a number rounded to any number of places have a result or an error of their own.
-/
theorem neverCrashes_operations :
    (∀ (op : Arithmetic) (base : Quantity) (percent : Decimal),
      NeverCrashes (op.relativeUnchecked base percent) (op.relative base percent)) ∧
    (∀ latestFirst : List Value, latestFirst.length < mantissaBound →
      NeverCrashes (runAverageUnchecked (numericRun latestFirst))
        (runAverage (numericRun latestFirst))) ∧
    (∀ (date : Value) (offset : Quantity) (backward : Bool),
      NeverCrashes (shiftUnchecked date offset backward) (shift date offset backward)) ∧
    (∀ (f : RoundFunction) (value : Decimal) (places : Int),
      NeverCrashes (f.onDecimalUnchecked value places) (f.onDecimal value places)) := by
  refine ⟨fun op base percent => ?_, fun latestFirst hlength => ?_, fun date offset backward => ?_,
    fun f value places => ?_⟩
  · exact neverCrashes_of_eq (relativeUnchecked_eq op base percent)
  · have hrun : (numericRun latestFirst).length < mantissaBound :=
      Nat.lt_of_le_of_lt (length_numericRun_le latestFirst) hlength
    exact neverCrashes_of_eq (runAverageUnchecked_eq hrun)
  · exact neverCrashes_of_eq (shiftUnchecked_eq date offset backward)
  · exact neverCrashes_of_eq (onDecimalUnchecked_eq f value places)

/-- The mean of 0, 0 and 1 is a third, to 28 places. -/
theorem neverCrashes_operations_third :
    let latestFirst : List Value := [.zero, .zero, .one].map fun d => .number ⟨d, .unitless⟩
    latestFirst.length < mantissaBound ∧
      runAverage (numericRun latestFirst) =
        .ok ⟨.ofScaled 3333333333333333333333333333 28, .unitless⟩ ∧
      runAverageUnchecked (numericRun latestFirst) ≠ .error .crash := by
  intro latestFirst
  have hlength : latestFirst.length < mantissaBound := by decide
  obtain ⟨-, haverage, -⟩ := neverCrashes_operations
  exact ⟨hlength, by decide +kernel, (haverage latestFirst hlength).2⟩

end LineCalc
