import LineCalc.EvalError
import LineCalc.Measure.Registry

/-!
# Arithmetic on dates

A date moves by a duration, with a resolution of milliseconds: the duration is counted in whole
milliseconds, toward zero. A date gains a time of day as soon as it moves by anything but whole
days. Two dates differ by a number of seconds, and the days until a date count calendar days.
-/

namespace LineCalc

/-- Moves of this many milliseconds and more do not fit in 64 bits with their sign. -/
def millisBound : Int := 9223372036854775808

/-- The whole milliseconds of a duration, toward zero, if they are in bounds. -/
def durationMillis (offset : Quantity) : Except EvalError Int := do
  let nanos ← inRange (offset.value.mul? offset.unit.multiplier)
  let millis ← inRange (nanos.div? (.ofInt nanosPerMilli))
  let whole := millis.truncate
  if -millisBound ≤ whole ∧ whole < millisBound then pure whole else throw .overflow

/-- An instant moved by some milliseconds. -/
def shiftBy (instant : Instant) (hasTime : Bool) (millis : Int) : Except EvalError Value :=
  match instant.advance? millis with
  | some shifted => .ok (.moment shifted (hasTime || millis % millisPerDay != 0))
  | none => .error .dateOutOfRange

/--
A date moved by a duration, forward or backward. The milliseconds are negated without bounds; at
`-millisBound`, whose opposite does not fit in 64 bits with its sign, the result is then out of the
range of dates, while a negation that checks for overflow in 64 bits would fail on its own.
-/
def shift (date : Value) (offset : Quantity) (backward : Bool) : Except EvalError Value :=
  match date with
  | .moment instant hasTime => do
    if offset.unit.family ≠ MeasureUnit.durationFamily then
      throw (.notDuration offset.unit.singular)
    let millis ← durationMillis offset
    shiftBy instant hasTime (if backward then -millis else millis)
  | other => .error (.expectsDate other.kind)

/-- A duration counted from a date. -/
def fromDate (left right : Value) : Except EvalError Value := do
  let offset ← left.expectNumber "'from'"
  shift right offset false

def requireUnit (units : Registry) (name : String) : Except EvalError MeasureUnit :=
  match units.get name with
  | .ok u => .ok u
  | .error e => .error (.unit e)

/-- Milliseconds as a decimal number of seconds. -/
def secondsOfMillis (millis : Int) : Except EvalError Decimal :=
  (inRange (Decimal.ofScaled? millis 3)).map (·.normalize)

/-- The seconds between two instants. -/
def difference (units : Registry) (later earlier : Instant) : Except EvalError Value := do
  let unit ← requireUnit units "s"
  let seconds ← secondsOfMillis (later.millisSince earlier)
  pure (.number ⟨seconds, unit⟩)

/-- The calendar days from today to a date. -/
def daysUntil (units : Registry) (today : Date) (target : Value) : Except EvalError Value :=
  match target with
  | .moment instant _ => do
    let unit ← requireUnit units "day"
    let days ← inRange (Decimal.ofScaled? (instant.date.dayNumber - today.dayNumber) 0)
    pure (.number ⟨days, unit⟩)
  | other => .error (.daysUntilExpectsDate other.kind)

/-- The date some days from today. -/
def dayFrom (today : Date) (days : Int) : Except EvalError Value :=
  match today.addDays? days with
  | some date => .ok (.ofDate date)
  | none => .error .dateOutOfRange

end LineCalc
