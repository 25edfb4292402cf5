import LineCalc.Config.Basic
import LineCalc.Proofs.Expression
import LineCalc.Token

/-!
# Expressions as they are written

The grammar of lines: which tokens write an expression. It says nothing of how tokens are read, and
it is the first side of the theorem that reading gives the expression back.

An operand that is not in parentheses leaves operators open at its right end, as `2 + - 3` does with
`+` and `-`: what is written after it may still be taken to the right of them. These are its open
operators, outermost first, and the first of them is the operator at its root. Parentheses are needed
only where the open operators do not agree with the operator that takes the operand:

* **`Operator.EndsBefore`**: an operator open in a left operand is complete before the next operator.
* **`Operator.WaitsFor`**: an operator waits for the operator at the root of its right operand.

Anywhere else parentheses may be written or left out. An assignment stands where nothing is open
before it: at the start of a line, of a group in parentheses or of an argument.
-/

namespace LineCalc

namespace Operator

/--
Whether an operator is complete before one that comes after its operand: it has the higher
precedence, or the same one and the next operator groups to the left.
-/
def EndsBefore (inner : Operator) (next : BinaryOperator) : Prop :=
  next.precedence < inner.precedence ∨
    (inner.precedence = next.precedence ∧ next.associativity = .left)

/--
Whether an operator waits for one that comes after its operand: the next operator has the higher
precedence, or the same one and groups to the right.
-/
def WaitsFor (outer : Operator) (next : BinaryOperator) : Prop :=
  outer.precedence < next.precedence ∨
    (next.precedence = outer.precedence ∧ next.associativity = .right)

theorem WaitsFor.of_endsBefore {outer : Operator} {inner next : BinaryOperator}
    (hwaits : outer.WaitsFor next) (hends : (Operator.binary inner).EndsBefore next) :
    outer.WaitsFor inner := by
  have hinner : (Operator.binary inner).precedence = inner.precedence := rfl
  unfold WaitsFor EndsBefore at *
  rw [hinner] at hends
  rcases hends with hlt | ⟨_, hleft⟩
  · left
    rcases hwaits with h | ⟨h, _⟩ <;> omega
  · rcases hwaits with h | ⟨_, hright⟩
    · left
      omega
    · rw [hleft] at hright
      cases hright

end Operator

/-- Whether an operand with these open operators may stand to the right of `outer` as it is. -/
def FitsRightOf (outer : Operator) (openOps : List Operator) : Prop :=
  ∀ root, openOps.head? = some (.binary root) → outer.WaitsFor root

mutual

/-- `Written config e tokens openOps`: the tokens write `e` as an operand with these open operators. -/
inductive Written (config : Config) : Expression → List Token → List Operator → Prop where
  | number {token : Token} {value : Decimal}
      (hkind : token.kind = .number) (hread : config.format.read token.text = .ok value) :
      Written config (.number value none) [token] []
  | quantity {token unitToken : Token} {value : Decimal} {unit : MeasureUnit}
      (hkind : token.kind = .number) (hread : config.format.read token.text = .ok value)
      (hunit : unitToken.kind = .unit)
      (hlookup : config.units.lookup unitToken.text = some unit) :
      Written config (.number value (some unit)) [token, unitToken] []
  | date {token : Token} {date : Date}
      (hkind : token.kind = .date) (hread : Date.read? token.text.toList = some date) :
      Written config (.date date) [token] []
  | time {token : Token} {time : TimeOfDay}
      (hkind : token.kind = .time) (hread : TimeOfDay.read? token.text.toList = some time) :
      Written config (.time time) [token] []
  | load {token : Token} (hkind : token.kind = .identifier) :
      Written config (.load token.text) [token] []
  | aggregator {token : Token} {a : Aggregator}
      (hkind : token.kind = .aggregator)
      (hfind : config.aggregators.find? token.text = some a) :
      Written config (.aggregator a) [token] []
  | group {opening closing : Token} {e : Expression} {tokens : List Token}
      (hopen : opening.kind = .openParen) (h : Started config e tokens)
      (hclose : closing.kind = .closeParen) :
      Written config e (opening :: (tokens ++ [closing])) []
  | prefixed {token : Token} {op : UnaryOperator} {e : Expression} {tokens : List Token}
      {openOps : List Operator}
      (hkind : token.kind = .operator)
      (hfind : config.unaryOperators.find? token.text = some op)
      (h : Written config e tokens openOps) (hfits : FitsRightOf (.unary op) openOps) :
      Written config (.prefixed op e) (token :: tokens) (.unary op :: openOps)
  | infixed {token : Token} {op : BinaryOperator} {left right : Expression}
      {leftTokens rightTokens : List Token} {leftOps rightOps : List Operator}
      (hleft : Written config left leftTokens leftOps)
      (hends : ∀ inner ∈ leftOps, inner.EndsBefore op)
      (hkind : token.kind = .operator)
      (hfind : config.binaryOperators.find? token.text = some op)
      (hright : Written config right rightTokens rightOps)
      (hfits : FitsRightOf (.binary op) rightOps) :
      Written config (.infixed op left right) (leftTokens ++ token :: rightTokens)
        (.binary op :: rightOps)
  | call {token opening closing : Token} {function : Function} {args : List Expression}
      {tokens : List Token}
      (hkind : token.kind = .function)
      (hfind : config.functions.find? token.text = some function)
      (hopen : opening.kind = .openParen) (h : Arguments config args tokens)
      (hclose : closing.kind = .closeParen) :
      Written config (.call function args) (token :: opening :: (tokens ++ [closing])) []

/-- `Started config e tokens`: the tokens write `e` where a line, a group or an argument starts. -/
inductive Started (config : Config) : Expression → List Token → Prop where
  | operand {e : Expression} {tokens : List Token} {openOps : List Operator}
      (h : Written config e tokens openOps) : Started config e tokens
  | assign {name mark : Token} {e : Expression} {tokens : List Token}
      (hname : name.kind = .identifier) (hmark : mark.kind = .assignment)
      (h : Started config e tokens) :
      Started config (.assign name.text e) (name :: mark :: tokens)

/-- `Arguments config args tokens`: the tokens write arguments with separators between them. -/
inductive Arguments (config : Config) : List Expression → List Token → Prop where
  | none : Arguments config [] []
  | last {e : Expression} {tokens : List Token} (h : Started config e tokens) :
      Arguments config [e] tokens
  | more {e next : Expression} {others : List Expression} {separator : Token}
      {tokens otherTokens : List Token}
      (h : Started config e tokens) (hseparator : separator.kind = .semicolon)
      (hothers : Arguments config (next :: others) otherTokens) :
      Arguments config (e :: next :: others) (tokens ++ separator :: otherTokens)

end

end LineCalc
