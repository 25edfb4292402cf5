import LineCalc.Operation

/-!
# Entries of a vocabulary

Operators stand before their operand or between two operands, functions are called with arguments
in parentheses, and aggregators stand alone. Each entry keeps the name as it was registered.
-/

namespace LineCalc

/-- To which side operators of one precedence group. -/
inductive Associativity where
  | left
  | right
  deriving Repr, DecidableEq

/-- An operator that stands before its operand. -/
structure UnaryOperator where
  symbol : String
  /-- Operators of higher precedence take their operands first. -/
  precedence : Nat
  /-- Whether the operator asks for a unit, so that none is chosen for display. -/
  isConversion : Bool
  operation : UnaryOperation
  deriving Repr, DecidableEq

/-- An operator that stands between its operands. -/
structure BinaryOperator where
  symbol : String
  precedence : Nat
  associativity : Associativity
  isConversion : Bool
  operation : BinaryOperation
  deriving Repr, DecidableEq

/-- An operator of either sort. -/
inductive Operator where
  | unary (op : UnaryOperator)
  | binary (op : BinaryOperator)
  deriving Repr, DecidableEq

namespace Operator

def symbol : Operator → String
  | unary op => op.symbol
  | binary op => op.symbol

def precedence : Operator → Nat
  | unary op => op.precedence
  | binary op => op.precedence

def isConversion : Operator → Bool
  | unary op => op.isConversion
  | binary op => op.isConversion

/-- Operators before an operand group to the right. -/
def isRightAssociative : Operator → Bool
  | unary _ => true
  | binary op => op.associativity = .right

def arity : Operator → Nat
  | unary _ => 1
  | binary _ => 2

end Operator

/-- A function, which takes a value and a second argument that is zero when it is not given. -/
structure Function where
  name : String
  operation : BinaryOperation
  deriving Repr, DecidableEq

/-- A name that stands for a value from the surroundings. -/
structure Aggregator where
  name : String
  operation : Aggregate
  deriving Repr, DecidableEq

end LineCalc
