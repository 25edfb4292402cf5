import LineCalc.Environment
import LineCalc.Plan

/-!
# The machine

A plan is run on a stack of values in an environment. Assignments are made as the plan goes along
and stay even when a later step fails; the history of lines is only read. At the end exactly one
value has to be left, or none at all.
-/

namespace LineCalc

/-- The values at hand, the latest first, and the environment as it is by now. -/
structure Machine where
  environment : Environment
  stack : List Value := []

namespace Machine

/-- The machine with one more value at hand. -/
def push (m : Machine) (v : Value) : Machine :=
  { m with stack := v :: m.stack }

/-- Gives a plain number the unit, or puts the unit itself on the stack. -/
def applyUnit (unit : MeasureUnit) : List Value → List Value
  | .number q :: rest =>
    if q.unit.isUnitless then .number { q with unit } :: rest
    else .marker unit :: .number q :: rest
  | stack => .marker unit :: stack

/-- The result of an operator, and the stack without its operands. -/
def applyOperator (units : Registry) (today : Date) (op : Operator) (stack : List Value) :
    Except EvalError (List Value) :=
  match op, stack with
  | .unary op, operand :: rest =>
    (op.operation.apply units today operand).map (· :: rest)
  | .binary op, right :: left :: rest =>
    (op.operation.apply units left right).map (· :: rest)
  | op, _ => .error (.missingOperand op.symbol)

/-- The result of a call, and the stack without its arguments. -/
def applyCall (units : Registry) (function : Function) (args : Nat) (stack : List Value) :
    Except EvalError (List Value) :=
  match args, stack with
  | 1, value :: rest =>
    (function.operation.apply units value (.plain .zero)).map (· :: rest)
  | 2, precision :: value :: rest =>
    (function.operation.apply units value precision).map (· :: rest)
  | 1, _ | 2, _ => .error (.missingOperand function.name)
  | count, _ => .error (.argumentCount function.name count)

def step (units : Registry) (m : Machine) (op : Opcode) : Except EvalError Machine :=
  match op with
  | .number value => .ok (m.push (.plain value))
  | .date date => .ok (m.push (.ofDate date))
  | .time time => .ok (m.push (.moment ⟨m.environment.now.date, time⟩ true))
  | .unit unit => .ok { m with stack := applyUnit unit m.stack }
  | .load name => .ok (m.push ((m.environment.lookup? name).getD .empty))
  | .aggregator a =>
    (a.operation.value m.environment.latestFirst m.environment.now).map m.push
  | .assign name =>
    match m.stack with
    | value :: _ =>
      if value.isStorable then .ok { m with environment := m.environment.assign name value }
      else .error .notAssignable
    | [] => .error .notAssignable
  | .operator op =>
    (applyOperator units m.environment.now.date op m.stack).map fun stack => { m with stack }
  | .call function args =>
    (applyCall units function args m.stack).map fun stack => { m with stack }

/-- Runs opcodes until one fails; the environment is the one that the last step left. -/
def steps (units : Registry) (m : Machine) :
    List Opcode → Environment × Except EvalError (List Value)
  | [] => (m.environment, .ok m.stack)
  | op :: rest =>
    match m.step units op with
    | .ok next => next.steps units rest
    | .error e => (m.environment, .error e)

/-- The result of a line, of which exactly one value or none may be left. -/
def result : List Value → Except EvalError Value
  | [] => .ok .empty
  | [.marker unit] => .error (.notResult (Value.marker unit).kind)
  | [.failed message] => .error (.notResult (Value.failed message).kind)
  | [value] => .ok value
  | stack => .error (.leftoverValues stack.length)

/-- Runs a plan in an environment, without recording its result. -/
def run (units : Registry) (env : Environment) (plan : Plan) :
    Environment × Except EvalError Value :=
  let (env, outcome) := steps units ⟨env, []⟩ plan
  (env, outcome.bind result)

/-- The value that a line with this outcome records. -/
def recorded : Except EvalError Value → Value
  | .ok value => value
  | .error e => .failed e.message

/-- Runs a plan and records its result, or its failure, as the next line. -/
def execute (units : Registry) (env : Environment) (plan : Plan) : Environment × Value :=
  let (env, outcome) := run units env plan
  (env.record (recorded outcome), recorded outcome)

end Machine

end LineCalc
