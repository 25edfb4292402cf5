import LineCalc.Calendar.Text
import LineCalc.Config.Operator
import LineCalc.Decimal.Digits

/-!
# Plans

A line is computed by a plan: a sequence of opcodes in postfix order, each of which takes what it
needs from the values before it and leaves a value.
-/

namespace LineCalc

/-- One step of a computation. -/
inductive Opcode where
  | number (value : Decimal)
  | date (date : Date)
  /-- A time of the current day. -/
  | time (time : TimeOfDay)
  | operator (op : Operator)
  /-- Gives a plain number a unit, or stands for the unit itself. -/
  | unit (unit : MeasureUnit)
  /-- Calls a function with as many arguments as were found between the parentheses. -/
  | call (function : Function) (args : Nat)
  /-- Keeps the last value under a name, and leaves it in place. -/
  | assign (name : String)
  /-- The value kept under a name. -/
  | load (name : String)
  | aggregator (aggregator : Aggregator)
  deriving DecidableEq

namespace Opcode

def toText : Opcode → String
  | number value => value.toText
  | date d => String.ofList d.toText
  | time t => String.ofList t.toText
  | operator (.unary op) => s!"unary({op.symbol})"
  | operator (.binary op) => op.symbol
  | unit u => u.name
  | call function args => s!"{function.name}/{args}"
  | assign name => s!"{name}:"
  | load name => name
  | aggregator a => a.name

def operator? : Opcode → Option Operator
  | operator op => some op
  | _ => none

end Opcode

/-- The steps of a computation in order. -/
abbrev Plan := List Opcode

namespace Plan

/-- Whether an operator other than a conversion is applied. -/
def hasArithmetic (plan : Plan) : Bool :=
  (plan.filterMap Opcode.operator?).any (!·.isConversion)

/-- Whether the result is converted to a unit that is asked for. -/
def hasConversion (plan : Plan) : Bool :=
  (plan.filterMap Opcode.operator?).any (·.isConversion)

def toText (plan : Plan) : String :=
  " ".intercalate (plan.map Opcode.toText)

end Plan

end LineCalc
