import LineCalc.Calendar.Instant
import LineCalc.Measure.Quantity

/-!
# Values

What an expression computes and what a line leaves behind: a quantity, an instant, a unit waiting
to be converted to, nothing, or the message of a failure.
-/

namespace LineCalc

/-- A value on the stack, in a variable or in the history of lines. -/
inductive Value where
  /-- A magnitude in a unit. -/
  | number (quantity : Quantity)
  /-- A date, with a time of day that counts or not. -/
  | moment (instant : Instant) (hasTime : Bool)
  /-- A unit on its own. -/
  | marker (unit : MeasureUnit)
  | empty
  /-- The result of a line that failed. -/
  | failed (message : String)
  deriving DecidableEq

namespace Value

instance : Inhabited Value := ⟨empty⟩

/-- The kinds of values. -/
inductive Kind where
  | number
  | moment
  | marker
  | empty
  | failed
  deriving Repr, DecidableEq

/-- What a kind is called in messages. -/
def Kind.name : Kind → String
  | number => "number"
  | moment => "date"
  | marker => "unit"
  | empty => "empty value"
  | failed => "error"

def kind : Value → Kind
  | number _ => .number
  | moment _ _ => .moment
  | marker _ => .marker
  | empty => .empty
  | failed _ => .failed

def plain (d : Decimal) : Value :=
  number ⟨d, .unitless⟩

/-- A date without a time of day. -/
def ofDate (date : Date) : Value :=
  moment (.startOf date) false

def isNumber : Value → Bool
  | number _ => true
  | _ => false

/-- Whether the value can be kept in a variable: a quantity or an instant. -/
def isStorable : Value → Bool
  | number _ | moment _ _ => true
  | _ => false

/-- The quantity that a value is, if it is one. -/
def quantity? : Value → Option Quantity
  | number q => some q
  | _ => none

end Value

end LineCalc
