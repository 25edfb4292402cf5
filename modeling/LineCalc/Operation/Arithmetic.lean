import LineCalc.EvalError

/-!
# Arithmetic on quantities

The four operators combine two magnitudes in one unit. The right operand is expressed in the unit
of the left one, and a plain number on the left takes the unit of the right one. A percentage on
the right of anything else is a share of the left operand: `100 + 20 %` is 120.
-/

namespace LineCalc

/-- The four operators. -/
inductive Arithmetic where
  | add
  | subtract
  | multiply
  | divide
  deriving Repr, DecidableEq

namespace Arithmetic

def symbol : Arithmetic → String
  | add => "+"
  | subtract => "-"
  | multiply => "*"
  | divide => "/"

/-- How messages refer to an operator. -/
def consumer (op : Arithmetic) : String :=
  s!"'{op.symbol}'"

def isAdditive : Arithmetic → Bool
  | add | subtract => true
  | multiply | divide => false

def onDecimals (op : Arithmetic) (x y : Decimal) : Except EvalError Decimal :=
  match op with
  | add => inRange (x.add? y)
  | subtract => inRange (x.sub? y)
  | multiply => inRange (x.mul? y)
  | divide => if y.isZero then .error .divisionByZero else inRange (x.div? y)

/-- Applies a percentage to a quantity, which keeps its unit. -/
def relative (op : Arithmetic) (base : Quantity) (percent : Decimal) :
    Except EvalError Quantity := do
  let share ← inRange ((base.value.mul? percent).bind (·.div? .hundred))
  let value ←
    match op with
    | add => inRange (base.value.add? share)
    | subtract => inRange (base.value.sub? share)
    | multiply => pure share
    | divide =>
      if percent.isZero then throw .divisionByZero
      else inRange ((percent.div? .hundred).bind base.value.div?)
  pure { base with value }

/-- Whether a percentage on the left meets a plain number in a sum or a difference. -/
def mixes (op : Arithmetic) (a b : Quantity) : Bool :=
  op.isAdditive && a.unit.isPercent != b.unit.isPercent &&
    (if a.unit.isPercent then b else a).unit.isUnitless

/-- Both magnitudes in one unit, and that unit. -/
def align (op : Arithmetic) (a b : Quantity) :
    Except EvalError (Decimal × Decimal × MeasureUnit) :=
  if op.mixes a b then .error (.mixesPercentage op.symbol)
  else if a.unit.isUnitless && !b.unit.isUnitless then .ok (a.value, b.value, b.unit)
  else
    match b.convertTo a.unit with
    | .ok converted => .ok (a.value, converted.value, a.unit)
    | .error e => .error (.unit e)

/-- An operator on quantities. -/
def onQuantities (op : Arithmetic) (a b : Quantity) : Except EvalError Quantity :=
  if b.unit.isPercent && !a.unit.isPercent then op.relative a b.value
  else do
    let (x, y, unit) ← op.align a b
    let value ← op.onDecimals x y
    pure ⟨value, unit⟩

def onValues (op : Arithmetic) (left right : Value) : Except EvalError Value := do
  let a ← left.expectNumber op.consumer
  let b ← right.expectNumber op.consumer
  let result ← op.onQuantities a b
  pure (.number result)

end Arithmetic

end LineCalc
