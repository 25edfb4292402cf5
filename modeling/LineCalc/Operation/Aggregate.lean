import LineCalc.Operation.Arithmetic
import LineCalc.Operation.Temporal

/-!
# Values from the surroundings

Aggregators take no operand: they read the results of the lines above or the clock. `sum` and
`average` look at the numeric lines directly above, up to the last line that is not a number; a
line that cannot be added to the total is left out of it.
-/

namespace LineCalc

/--
What a name without operands can stand for: the aggregators that the calculator comes with. The list
is closed, and a vocabulary cannot add a function of its own to it.
-/
inductive Aggregate where
  | sum
  | average
  | prev
  | now
  | today
  | tomorrow
  | yesterday
  deriving Repr, DecidableEq

/-- The quantities at the end of a history given latest first, oldest first. -/
def numericRun (latestFirst : List Value) : List Quantity :=
  ((latestFirst.takeWhile Value.isNumber).filterMap Value.quantity?).reverse

/-- A total with one more quantity added, or as it was when that cannot be added. -/
def addOrKeep (total next : Quantity) : Quantity :=
  match Arithmetic.add.onQuantities total next with
  | .ok sum => sum
  | .error _ => total

/-- The total of a run, if there is anything in it. -/
def runTotal : List Quantity → Option Quantity
  | [] => none
  | first :: rest => some (rest.foldl addOrKeep first)

/-- The mean of a run; of nothing it is zero. -/
def runAverage (run : List Quantity) : Except EvalError Quantity :=
  match runTotal run with
  | none => .ok ⟨.zero, .unitless⟩
  | some total => do
    let value ← inRange ((Decimal.ofScaled? run.length 0).bind total.value.div?)
    pure { total with value }

namespace Aggregate

/-- The value of an aggregator, after lines given latest first and at a time. -/
def value (a : Aggregate) (latestFirst : List Value) (now : Instant) : Except EvalError Value :=
  match a with
  | .sum => .ok (.number ((runTotal (numericRun latestFirst)).getD ⟨.zero, .unitless⟩))
  | .average => (runAverage (numericRun latestFirst)).map .number
  | .prev =>
    match latestFirst with
    | [] => .ok .empty
    | last :: _ => .ok (if last.isStorable then last else .empty)
  | .now => .ok (.moment now true)
  | .today => .ok (.ofDate now.date)
  | .tomorrow => dayFrom now.date 1
  | .yesterday => dayFrom now.date (-1)

end Aggregate

end LineCalc
