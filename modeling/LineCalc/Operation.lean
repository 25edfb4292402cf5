import LineCalc.Operation.Aggregate
import LineCalc.Operation.Percent
import LineCalc.Operation.RoundTo

/-!
# Operations

The operations that operators and functions of a vocabulary can stand for. `+` and `-` work on
dates as well as on quantities.
-/

namespace LineCalc

/--
Operations on two values. The list is closed: these are the operations that the calculator comes
with. A vocabulary gives them symbols, precedences and names; one that puts functions of its own
under its symbols is outside of what is modelled here.
-/
inductive BinaryOperation where
  | arithmetic (op : Arithmetic)
  /-- The left quantity in the unit on the right. -/
  | convert
  /-- A duration counted from a date. -/
  | fromDate
  | percent (phrase : PercentPhrase)
  | compare (phrase : ComparePhrase)
  | round (function : RoundFunction)
  deriving Repr, DecidableEq

/-- Operations on one value: those that the calculator comes with, in a list that is closed too. -/
inductive UnaryOperation where
  | negate
  /-- Calendar days from today to a date. -/
  | daysUntil
  deriving Repr, DecidableEq

/-- A quantity in a unit. -/
def convert (left right : Value) : Except EvalError Value :=
  match right with
  | .marker target => do
    let q ← left.expectNumber "conversion"
    match q.convertTo target with
    | .ok converted => pure (.number converted)
    | .error e => throw (.unit e)
  | other => .error (.expectsUnit other.kind)

/-- A sum: of a date and a duration in either order, or of quantities. -/
def add (left right : Value) : Except EvalError Value :=
  match left, right with
  | .moment .., .number offset => shift left offset false
  | .number offset, .moment .. => shift right offset false
  | _, _ => Arithmetic.add.onValues left right

/-- A difference: of a date and a duration, of two dates, or of quantities. -/
def subtract (units : Registry) (left right : Value) : Except EvalError Value :=
  match left, right with
  | .moment .., .number offset => shift left offset true
  | .moment later _, .moment earlier _ => difference units later earlier
  | _, _ => Arithmetic.subtract.onValues left right

namespace BinaryOperation

def apply (op : BinaryOperation) (units : Registry) (left right : Value) :
    Except EvalError Value :=
  match op with
  | .arithmetic .add => add left right
  | .arithmetic .subtract => subtract units left right
  | .arithmetic other => other.onValues left right
  | .convert => LineCalc.convert left right
  | .fromDate => LineCalc.fromDate left right
  | .percent phrase => phrase.onValues left right
  | .compare phrase => phrase.onValues left right
  | .round function => function.onValues left right

end BinaryOperation

def negate (operand : Value) : Except EvalError Value := do
  let q ← operand.expectNumber "'-'"
  pure (.number { q with value := q.value.neg })

namespace UnaryOperation

def apply (op : UnaryOperation) (units : Registry) (today : Date) (operand : Value) :
    Except EvalError Value :=
  match op with
  | .negate => LineCalc.negate operand
  | .daysUntil => LineCalc.daysUntil units today operand

end UnaryOperation

end LineCalc
