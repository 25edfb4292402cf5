import LineCalc.Config.Basic
import LineCalc.Plan
import LineCalc.Token

/-!
# From tokens to a plan

Operators wait until their right operand is complete. They wait on a stack, together with open
parentheses, open calls and names that are to be assigned, while operands go straight into the plan.
A symbol that can stand before an operand and between operands is read by what came before it:
after an operand it stands between operands, elsewhere before one.
-/

namespace LineCalc

/-- Why tokens do not make a plan. -/
inductive ParseError where
  | invalidNumber (text : String) (cause : NumeralError)
  | invalidDate (text : String)
  | invalidTime (text : String)
  | unknownOperator (symbol : String)
  | unknownUnit (name : String)
  | unknownAggregator (name : String)
  | unknownFunction (name : String)
  /-- There is no name before an assignment. -/
  | unexpectedAssignment (text : String) (offset : Nat)
  /-- A function is not called. -/
  | missingCall (function : String)
  | unbalancedClose
  | unbalancedOpen
  | missingArgument (function : String)
  /-- An argument before a separator is missing. -/
  | missingBeforeSeparator
  | misplacedSeparator
  deriving Repr, DecidableEq

namespace ParseError

/-- What is said about tokens that do not make a plan. -/
def message : ParseError → String
  | invalidNumber text cause => s!"invalid number '{text}': {cause.message}"
  | invalidDate text => s!"Invalid date '{text}'."
  | invalidTime text => s!"Invalid time '{text}'."
  | unknownOperator symbol => s!"Unknown operator '{symbol}'."
  | unknownUnit name => s!"Unknown unit '{name}'."
  | unknownAggregator name => s!"Unknown aggregator '{name}'."
  | unknownFunction name => s!"Unknown function '{name}'."
  | unexpectedAssignment text offset =>
    s!"Unexpected assignment '{text}' at position {offset}."
  | missingCall function => s!"Expected '(' after function '{function}'."
  | unbalancedClose => "Unbalanced parens."
  | unbalancedOpen => "Unbalanced parens in final loop."
  | missingArgument function => s!"Missing argument in call to '{function}'."
  | missingBeforeSeparator => "Missing argument before ';'."
  | misplacedSeparator => "Misplaced argument separator."

/-- The message under the name of its category. -/
def text (e : ParseError) : String :=
  "Parse error: " ++ e.message

end ParseError

/-- What waits for its right end. -/
inductive Pending where
  /-- An operator that waits for its right operand. -/
  | operator (op : Operator)
  | paren
  /-- An open call with the number of arguments that have ended. -/
  | call (function : Function) (args : Nat)
  /-- A name that waits for its value. -/
  | assign (name : String)
  deriving DecidableEq

/-- What a place in a line calls for. -/
inductive Expect where
  | operand
  | operator
  deriving Repr, DecidableEq

/-- What has been made of the tokens so far. -/
structure ParseState where
  /-- The plan so far, its last opcode first. -/
  reversed : List Opcode := []
  /-- What waits, the latest first. -/
  stack : List Pending := []
  expect : Expect := .operand

/-- Tokens that do not make a plan, with the plan of those before the failure. -/
structure ParseFailure where
  error : ParseError
  partialPlan : Plan
  deriving DecidableEq

namespace ParseState

def plan (st : ParseState) : Plan :=
  st.reversed.reverse

def fail {α : Type} (st : ParseState) (error : ParseError) : Except ParseFailure α :=
  .error ⟨error, st.plan⟩

def operand (st : ParseState) (op : Opcode) : ParseState :=
  { st with reversed := op :: st.reversed, expect := .operator }

/-- Adds something that waits for what follows. -/
def wait (st : ParseState) (p : Pending) : ParseState :=
  { st with stack := p :: st.stack, expect := .operand }

/-- The operator that a symbol stands for at this point. -/
def resolve (st : ParseState) (config : Config) (symbol : String) : Option Operator :=
  let unary := (config.unaryOperators.find? symbol).map Operator.unary
  let binary := (config.binaryOperators.find? symbol).map Operator.binary
  match st.expect with
  | .operand => unary.or binary
  | .operator => binary.or unary

/-- Whether a waiting operator takes its operands before an operator that comes after them. -/
def bindsFirst (waiting : Operator) (next : BinaryOperator) : Bool :=
  next.precedence < waiting.precedence ||
    (waiting.precedence == next.precedence && next.associativity == .left)

/-- Completes the waiting operators that take their operands before the next one. -/
def complete (next : BinaryOperator) (reversed : List Opcode) :
    List Pending → List Opcode × List Pending
  | .operator top :: rest =>
    if bindsFirst top next then complete next (.operator top :: reversed) rest
    else (reversed, .operator top :: rest)
  | stack => (reversed, stack)

/-- Adds an operator; one before its operand has no left operand that could be complete. -/
def pushOperator (st : ParseState) : Operator → ParseState
  | .unary op => st.wait (.operator (.unary op))
  | .binary op =>
    let (reversed, stack) := complete op st.reversed st.stack
    { reversed, stack := .operator (.binary op) :: stack, expect := .operand }

/--
Completes all that waits above the innermost open bracket. What is left of the stack starts with
that bracket, or is empty.
-/
def unwind (reversed : List Opcode) : List Pending → List Opcode × List Pending
  | .operator op :: rest => unwind (.operator op :: reversed) rest
  | .assign name :: rest => unwind (.assign name :: reversed) rest
  | stack => (reversed, stack)

/-- Completing operators keeps what is kept when one of them comes into the plan. -/
theorem complete_keeps {motive : List Opcode → List Pending → Prop} {reversed : List Opcode}
    {stack : List Pending} (next : BinaryOperator)
    (operator : ∀ {reversed op rest}, motive reversed (.operator op :: rest) →
      motive (.operator op :: reversed) rest)
    (h : motive reversed stack) :
    motive (complete next reversed stack).1 (complete next reversed stack).2 := by
  induction stack generalizing reversed with
  | nil => exact h
  | cons p rest ih =>
    cases p with
    | operator top =>
      unfold complete
      split
      · exact ih (operator h)
      · exact h
    | paren | call function args | assign name => exact h

/-- Unwinding keeps what is kept when an operator or an assignment comes into the plan. -/
theorem unwind_keeps {motive : List Opcode → List Pending → Prop} {reversed : List Opcode}
    {stack : List Pending}
    (operator : ∀ {reversed op rest}, motive reversed (.operator op :: rest) →
      motive (.operator op :: reversed) rest)
    (assign : ∀ {reversed name rest}, motive reversed (.assign name :: rest) →
      motive (.assign name :: reversed) rest)
    (h : motive reversed stack) : motive (unwind reversed stack).1 (unwind reversed stack).2 := by
  induction stack generalizing reversed with
  | nil => exact h
  | cons p rest ih =>
    cases p with
    | operator op => exact ih (operator h)
    | assign name => exact ih (assign h)
    | paren | call function args => exact h

/-- The number of arguments of a call that is closed now, unless the last one is missing. -/
def argumentCount? (expect : Expect) (args : Nat) : Option Nat :=
  match expect with
  | .operator => some (args + 1)
  | .operand => if args = 0 then some 0 else none

/-- Closes the innermost bracket. -/
def close (st : ParseState) : Except ParseFailure ParseState :=
  match unwind st.reversed st.stack with
  | (reversed, .paren :: rest) => .ok { reversed, stack := rest, expect := .operator }
  | (reversed, .call function args :: rest) =>
    match argumentCount? st.expect args with
    | some count =>
      .ok { reversed := .call function count :: reversed, stack := rest, expect := .operator }
    | none => .error ⟨.missingArgument function.name, reversed.reverse⟩
  | (reversed, _) => .error ⟨.unbalancedClose, reversed.reverse⟩

/-- Ends an argument of the innermost bracket, which has to be a call. -/
def separate (st : ParseState) : Except ParseFailure ParseState :=
  match st.expect with
  | .operand => st.fail .missingBeforeSeparator
  | .operator =>
    match unwind st.reversed st.stack with
    | (reversed, .call function args :: rest) =>
      .ok { reversed, stack := .call function (args + 1) :: rest, expect := .operand }
    | (reversed, _) => .error ⟨.misplacedSeparator, reversed.reverse⟩

/-- Completes everything at the end of the line; no bracket may be open. -/
def finish (st : ParseState) : Except ParseFailure Plan :=
  match unwind st.reversed st.stack with
  | (reversed, []) => .ok reversed.reverse
  | (reversed, _) => .error ⟨.unbalancedOpen, reversed.reverse⟩

/-- Adds an operand that is found, or fails. -/
def operandOr (st : ParseState) (op : Option Opcode) (error : ParseError) :
    Except ParseFailure ParseState :=
  match op with
  | some op => .ok (st.operand op)
  | none => st.fail error

/-- Takes in a token that stands for itself, whatever follows it. -/
def step (config : Config) (st : ParseState) (token : Token) : Except ParseFailure ParseState :=
  match token.kind with
  | .comment => .ok st
  | .number =>
    match config.format.read token.text with
    | .ok value => .ok (st.operand (.number value))
    | .error cause => st.fail (.invalidNumber token.text cause)
  | .date =>
    st.operandOr ((Date.read? token.text.toList).map Opcode.date) (.invalidDate token.text)
  | .time =>
    st.operandOr ((TimeOfDay.read? token.text.toList).map Opcode.time) (.invalidTime token.text)
  | .operator =>
    match st.resolve config token.text with
    | some op => .ok (st.pushOperator op)
    | none => st.fail (.unknownOperator token.text)
  | .unit =>
    st.operandOr ((config.units.lookup token.text).map Opcode.unit) (.unknownUnit token.text)
  | .aggregator =>
    st.operandOr ((config.aggregators.find? token.text).map Opcode.aggregator)
      (.unknownAggregator token.text)
  | .identifier => .ok (st.operand (.load token.text))
  | .assignment => st.fail (.unexpectedAssignment token.text token.offset)
  | .function =>
    match config.functions.find? token.text with
    | some function => st.fail (.missingCall function.name)
    | none => st.fail (.unknownFunction token.text)
  | .openParen => .ok (st.wait .paren)
  | .closeParen => st.close
  | .semicolon => st.separate

/--
Takes in the tokens of a line. A word with an assignment after it and a function with an open
parenthesis after it are taken in together with what follows.
-/
def run (config : Config) (st : ParseState) : List Token → Except ParseFailure Plan
  | [] => st.finish
  | [token] => (st.step config token).bind finish
  | token :: next :: rest =>
    if token.kind = .identifier ∧ next.kind = .assignment then
      run config (st.wait (.assign token.text)) rest
    else if token.kind = .function ∧ next.kind = .openParen then
      match config.functions.find? token.text with
      | some function => run config (st.wait (.call function 0)) rest
      | none => st.fail (.unknownFunction token.text)
    else
      match st.step config token with
      | .ok st => run config st (next :: rest)
      | .error failure => .error failure

end ParseState

def Plan.ofTokens (config : Config) (tokens : List Token) : Except ParseFailure Plan :=
  ParseState.run config {} tokens

end LineCalc
