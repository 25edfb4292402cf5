import LineCalc.EvalError

/-!
# Rounding functions

`round`, `ceil` and `floor` take a quantity and a number of decimal places, of which the integer
part counts. With a negative number of places they round to a power of ten. The unit stays.
-/

namespace LineCalc

/--
The rounding functions, which are all functions that the calculator comes with. The list is closed,
and a vocabulary cannot add a function of its own to it.
-/
inductive RoundFunction where
  | round
  | ceil
  | floor
  deriving Repr, DecidableEq

namespace RoundFunction

def consumer : RoundFunction → String
  | round => "round()"
  | ceil => "ceil()"
  | floor => "floor()"

/-- The side to which a function rounds. -/
def mode : RoundFunction → Rounding
  | round => .halfAway
  | ceil => .ceiling
  | floor => .floor

/-- Half of the smallest power of ten that no decimal reaches, 10^29. -/
def halfBeyond : Decimal := .ofInt 50000000000000000000000000000

/--
Whether rounding to a power of ten that no decimal reaches, 10^`power` with `power` above 28,
gives zero.
-/
def vanishes (f : RoundFunction) (value : Decimal) (power : Nat) : Bool :=
  match f with
  | ceil => value.le .zero
  | floor => Decimal.zero.le value
  | round => maxScale + 1 < power || value.abs.lt halfBeyond

/-- A number rounded to a multiple of a power of ten in range. -/
def toPower (f : RoundFunction) (value : Decimal) (power : Nat) (h : power ≤ maxScale) :
    Except EvalError Decimal := do
  let factor := Decimal.powerOfTen power h
  let scaled ← inRange (value.div? factor)
  inRange ((scaled.roundTo 0 f.mode).mul? factor)

/-- A number rounded to so many decimal places. -/
def onDecimal (f : RoundFunction) (value : Decimal) (places : Int) : Except EvalError Decimal :=
  if 0 ≤ places then .ok (value.roundTo places.toNat f.mode)
  else if h : (-places).toNat ≤ maxScale then f.toPower value (-places).toNat h
  else if f.vanishes value (-places).toNat then .ok .zero
  else .error .overflow

/-- Whether a number of places is one that can be asked for: it fits in 32 bits with its sign. -/
def placesInRange (places : Int) : Bool :=
  -2147483648 ≤ places && places < 2147483648

/-- A rounding function on values: a quantity and a number of places. -/
def onValues (f : RoundFunction) (value precision : Value) : Except EvalError Value := do
  let q ← value.expectNumber f.consumer
  let p ← precision.expectNumber f.consumer
  let places := p.value.truncate
  if !placesInRange places then
    throw (.precisionOutOfRange f.consumer)
  let rounded ← f.onDecimal q.value places
  pure (.number { q with value := rounded })

end RoundFunction

end LineCalc
