import LineCalc.Decimal.Numeral
import LineCalc.Measure.Error
import LineCalc.Value

/-!
# Why an evaluation fails

Every failure of an operation or of the machine, by cause. A failure belongs to a category: a value
of the wrong kind, a computation without a result, or a unit that does not fit.
-/

namespace LineCalc

/-- Why an evaluation fails. -/
inductive EvalError where
  | expectsNumber (consumer : String) (got : Value.Kind)
  | expectsUnit (got : Value.Kind)
  | expectsDate (got : Value.Kind)
  | daysUntilExpectsDate (got : Value.Kind)
  /-- A date can only be moved by a duration. -/
  | notDuration (unit : String)
  | mixesPercentage (symbol : String)
  /-- A percentage is needed on the left. -/
  | expectsPercentage (consumer : String) (got : String)
  /-- A percentage where two amounts are compared. -/
  | comparesAmounts (consumer : String)
  | divisionByZero
  | dateOutOfRange
  /-- The number of places to round to is too large. -/
  | precisionOutOfRange (consumer : String)
  | invalidNumber (text : String) (cause : NumeralError)
  | missingOperand (consumer : String)
  /-- Only a number or a date can be assigned. -/
  | notAssignable
  | argumentCount (function : String) (got : Nat)
  | leftoverValues (count : Nat)
  | notResult (kind : Value.Kind)
  /-- A unit does not fit, or a number is too large. -/
  | unit (error : UnitError)
  deriving DecidableEq

namespace EvalError

/-- The sorts of failures. -/
inductive Category where
  | type
  | evaluation
  | unit
  deriving Repr, DecidableEq

def overflow : EvalError := unit .overflow

/-- The category of a failure. -/
def category : EvalError → Category
  | expectsNumber .. | expectsUnit .. | expectsDate .. | daysUntilExpectsDate .. | notDuration ..
  | mixesPercentage .. | expectsPercentage .. | comparesAmounts .. => .type
  | unit _ => .unit
  | _ => .evaluation

/-- What is said about a failure. -/
def message : EvalError → String
  | expectsNumber consumer got => s!"{consumer} expects a number, got {got.name}"
  | expectsUnit got => s!"conversion expects a unit, got {got.name}"
  | expectsDate got => s!"expected a date, got {got.name}"
  | daysUntilExpectsDate got => s!"'days until' expects a date, got {got.name}"
  | notDuration shown => s!"a date can only be moved by a duration, not by '{shown}'"
  | mixesPercentage symbol => s!"cannot combine a percentage and a plain number with '{symbol}'"
  | expectsPercentage consumer got => s!"{consumer} expects a percentage on the left, got {got}"
  | comparesAmounts consumer => s!"{consumer} compares two amounts, got a percentage"
  | divisionByZero => "Division by zero"
  | dateOutOfRange => "date out of range"
  | precisionOutOfRange consumer => s!"{consumer} precision out of range"
  | invalidNumber text cause => s!"invalid number '{text}': {cause.message}"
  | missingOperand consumer => s!"missing operand for '{consumer}'"
  | notAssignable => "top of stack at assignment must be numeric"
  | argumentCount function got => s!"'{function}' expects 1 or 2 arguments, got {got}"
  | leftoverValues count => s!"expected a single result, found {count} values"
  | notResult kind => s!"a line cannot evaluate to a {kind.name}"
  | unit error => error.message

/-- The message under the name of its category; units speak for themselves. -/
def text (e : EvalError) : String :=
  match e.category with
  | .type => "Type error: " ++ e.message
  | .evaluation => "Evaluation error: " ++ e.message
  | .unit => e.message

end EvalError

namespace Value

/-- The quantity that a value is, which `consumer` needs. -/
def expectNumber (v : Value) (consumer : String) : Except EvalError Quantity :=
  match v with
  | number q => .ok q
  | other => .error (.expectsNumber consumer other.kind)

end Value

/-- A number that has to be in range. -/
def inRange (d : Option Decimal) : Except EvalError Decimal :=
  match d with
  | some d => .ok d
  | none => .error .overflow

end LineCalc
