import LineCalc.Plan

/-!
# Expression trees

What a line computes, before it is written down as tokens or laid out as a plan: a tree of literals,
names, operators, calls and assignments.

* **`Expression`**: the trees. The arguments of a call are a list of trees, so the principle that
  Lean derives speaks of trees and of lists of them.
* **`Expression.induct`**: induction with one hypothesis for all arguments of a call.
* **`Expression.postorder`**: the plan of a tree, operands from left to right and each operator
  after its operands.
-/

namespace LineCalc

/-- What a line computes. -/
inductive Expression where
  /-- A number, in a unit when one is written after it. -/
  | number (value : Decimal) (unit : Option MeasureUnit)
  | date (date : Date)
  /-- A time of the current day. -/
  | time (time : TimeOfDay)
  /-- The value kept under a name. -/
  | load (name : String)
  | aggregator (aggregator : Aggregator)
  | prefixed (op : UnaryOperator) (operand : Expression)
  | infixed (op : BinaryOperator) (left right : Expression)
  | call (function : Function) (args : List Expression)
  | assign (name : String) (value : Expression)

namespace Expression

/-- Induction on trees, with one hypothesis for all arguments of a call. -/
@[elab_as_elim, induction_eliminator]
theorem induct {motive : Expression → Prop}
    (number : ∀ value unit, motive (.number value unit))
    (date : ∀ date, motive (.date date))
    (time : ∀ time, motive (.time time))
    (load : ∀ name, motive (.load name))
    (aggregator : ∀ a, motive (.aggregator a))
    (prefixed : ∀ op operand, motive operand → motive (.prefixed op operand))
    (infixed : ∀ op left right, motive left → motive right → motive (.infixed op left right))
    (call : ∀ function args, (∀ arg ∈ args, motive arg) → motive (.call function args))
    (assign : ∀ name value, motive value → motive (.assign name value))
    (e : Expression) : motive e :=
  @Expression.rec motive (fun args => ∀ arg ∈ args, motive arg)
    number date time load aggregator prefixed infixed call assign
    (List.forall_mem_nil motive)
    (fun _ _ hfirst hothers => List.forall_mem_cons.2 ⟨hfirst, hothers⟩) e

mutual

/-- The opcodes of a tree: operands from left to right, and each operator after its operands. -/
def postorder : Expression → Plan
  | .number value none => [.number value]
  | .number value (some u) => [.number value, .unit u]
  | .date d => [.date d]
  | .time t => [.time t]
  | .load name => [.load name]
  | .aggregator a => [.aggregator a]
  | .prefixed op operand => operand.postorder ++ [.operator (.unary op)]
  | .infixed op left right =>
    left.postorder ++ right.postorder ++ [.operator (.binary op)]
  | .call function args => postorderAll args ++ [.call function args.length]
  | .assign name value => value.postorder ++ [.assign name]

/-- The opcodes of trees one after the other. -/
def postorderAll : List Expression → Plan
  | [] => []
  | first :: others => first.postorder ++ postorderAll others

end

end Expression

end LineCalc
