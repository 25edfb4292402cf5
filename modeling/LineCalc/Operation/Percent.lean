import LineCalc.Operation.Arithmetic

/-!
# Percent phrases

In `X on Y`, `X off Y`, `X of Y` and the `what is` forms, X is a percentage and the result has the
unit of Y. The `as a %` forms compare two amounts and answer in percent. Each phrase is a formula;
its intermediate results are rounded into range in the order in which the formula is written.
-/

namespace LineCalc

/-- Phrases with a percentage on the left and an amount on the right. -/
inductive PercentPhrase where
  /-- The amount increased by the percentage. -/
  | on
  /-- The amount decreased by the percentage. -/
  | off
  /-- The percentage of the amount. -/
  | of
  /-- What gives the amount when it is increased by the percentage. -/
  | onWhatIs
  /-- What gives the amount when it is decreased by the percentage. -/
  | offWhatIs
  /-- What the amount is the percentage of. -/
  | ofWhatIs
  deriving Repr, DecidableEq

/-- Phrases that compare two amounts. -/
inductive ComparePhrase where
  /-- The left amount as a share of the right one. -/
  | of
  /-- By how much the left amount exceeds the right one. -/
  | on
  /-- By how much the left amount falls short of the right one. -/
  | off
  deriving Repr, DecidableEq

/-- A quotient, which there is none of by zero. -/
def quotient (x y : Decimal) : Except EvalError Decimal :=
  if y.isZero then .error .divisionByZero else inRange (x.div? y)

namespace PercentPhrase

def consumer : PercentPhrase → String
  | on => "'on'"
  | off => "'off'"
  | of => "'of'"
  | onWhatIs => "'on what is'"
  | offWhatIs => "'off what is'"
  | ofWhatIs => "'of what is'"

/-- The magnitude that a phrase gives for `x` percent and the amount `y`. -/
def formula (p : PercentPhrase) (x y : Decimal) : Except EvalError Decimal := do
  match p with
  | on =>
    let share ← quotient y .hundred
    let factor ← inRange (x.add? .hundred)
    inRange (share.mul? factor)
  | off =>
    let share ← quotient y .hundred
    let factor ← inRange (Decimal.hundred.sub? x)
    inRange (share.mul? factor)
  | of =>
    let share ← quotient y .hundred
    inRange (share.mul? x)
  | onWhatIs =>
    let factor ← inRange (x.add? .hundred)
    let share ← quotient y factor
    inRange (share.mul? .hundred)
  | offWhatIs =>
    let factor ← inRange (Decimal.hundred.sub? x)
    let share ← quotient y factor
    inRange (share.mul? .hundred)
  | ofWhatIs =>
    let share ← quotient y x
    inRange (share.mul? .hundred)

/-- What messages call a unit that should be the percentage. -/
def describe (u : MeasureUnit) : String :=
  if u.isUnitless then "a plain number" else u.name

/-- A phrase on values: a percentage and an amount, whose unit the result has. -/
def onValues (p : PercentPhrase) (left right : Value) : Except EvalError Value := do
  let percent ← left.expectNumber p.consumer
  if !percent.unit.isPercent then
    throw (.expectsPercentage p.consumer (describe percent.unit))
  let amount ← right.expectNumber p.consumer
  let value ← p.formula percent.value amount.value
  pure (.number { amount with value })

end PercentPhrase

namespace ComparePhrase

def consumer : ComparePhrase → String
  | of => "'as a % of'"
  | on => "'as a % on'"
  | off => "'as a % off'"

/-- The percentage that a phrase gives for two magnitudes in one unit. -/
def formula (p : ComparePhrase) (x y : Decimal) : Except EvalError Decimal := do
  match p with
  | of =>
    let ratio ← quotient x y
    inRange (ratio.mul? .hundred)
  | on =>
    let excess ← inRange (x.sub? y)
    let ratio ← quotient excess y
    inRange (ratio.mul? .hundred)
  | off =>
    let shortfall ← inRange (y.sub? x)
    let ratio ← quotient shortfall y
    inRange (ratio.mul? .hundred)

/-- The magnitude of `y` in the unit of `x`; a plain `x` takes it as it is. -/
def inUnitOf (x y : Quantity) : Except EvalError Decimal :=
  if x.unit.isUnitless then .ok y.value
  else
    match y.convertTo x.unit with
    | .ok converted => .ok converted.value
    | .error e => .error (.unit e)

/-- A phrase on values: two amounts, of which the result is a percentage. -/
def onValues (p : ComparePhrase) (left right : Value) : Except EvalError Value := do
  let x ← left.expectNumber p.consumer
  let y ← right.expectNumber p.consumer
  if x.unit.isPercent || y.unit.isPercent then
    throw (.comparesAmounts p.consumer)
  let magnitude ← inUnitOf x y
  let value ← p.formula x.value magnitude
  pure (.number ⟨value, .percent⟩)

end ComparePhrase

end LineCalc
