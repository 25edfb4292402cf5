import LineCalc.Machine
import LineCalc.Proofs.Expression
import LineCalc.Proofs.Results

/-!
# Evaluating expressions

The value of a tree, without a stack: operands are evaluated from left to right, an assignment takes
effect when its value is there, and the first failure ends it. The machine does the same with the
plan of the tree, above whatever is on its stack already.

* **`Expression.evaluate`**: the value of a tree, and the environment that is left.
* **`steps_postorder`**: within a longer plan, the opcodes of a tree put its value on the stack.
* **`onlyAssigned_evaluate`**, **`isResult_of_evaluate`**: an evaluation changes nothing but
  variables, and what it gives can be the result of a line.
* **`run_postorder`**: running the plan of a tree is evaluating the tree.
-/

namespace LineCalc

/-- What an evaluation leaves: the environment, and what it gives unless it fails. -/
abbrev Outcome (α : Type) := Environment × Except EvalError α

/-- Goes on in the environment that is left, unless the evaluation has failed. -/
def Outcome.andThen {α β : Type} (outcome : Outcome α) (next : Environment → α → Outcome β) :
    Outcome β :=
  match outcome with
  | (env, .ok a) => next env a
  | (env, .error e) => (env, .error e)

theorem Outcome.andThen_assoc {α β γ : Type} (outcome : Outcome α)
    (next : Environment → α → Outcome β) (last : Environment → β → Outcome γ) :
    (outcome.andThen next).andThen last =
      outcome.andThen fun env a => (next env a).andThen last := by
  obtain ⟨env, _ | a⟩ := outcome <;> rfl

theorem Outcome.andThen_congr {α β : Type} {outcome : Outcome α}
    {next other : Environment → α → Outcome β}
    (h : ∀ env a, outcome = (env, .ok a) → next env a = other env a) :
    outcome.andThen next = outcome.andThen other := by
  obtain ⟨env, _ | a⟩ := outcome
  · rfl
  · exact h env a rfl

theorem Outcome.andThen_eq_ok {α β : Type} {outcome : Outcome α} {next : Environment → α → Outcome β}
    {after : Environment} {b : β} :
    outcome.andThen next = (after, .ok b) ↔
      ∃ env a, outcome = (env, .ok a) ∧ next env a = (after, .ok b) := by
  obtain ⟨env, e | a⟩ := outcome
  · simp [andThen]
  · constructor
    · exact fun h => ⟨env, a, rfl, h⟩
    · rintro ⟨_, _, heq, h⟩
      cases heq
      exact h

/-- The result of a call with some arguments: a second one that is not given is zero. -/
def Function.onValues (function : Function) (units : Registry) :
    List Value → Except EvalError Value
  | [value] => function.operation.apply units value (.plain .zero)
  | [value, second] => function.operation.apply units value second
  | values => .error (.argumentCount function.name values.length)

namespace Expression

mutual

/-- The value of a tree in an environment. -/
def evaluate (units : Registry) (env : Environment) : Expression → Outcome Value
  | .number value none => (env, .ok (.plain value))
  | .number value (some unit) => (env, .ok (.number ⟨value, unit⟩))
  | .date d => (env, .ok (.ofDate d))
  | .time t => (env, .ok (.moment ⟨env.now.date, t⟩ true))
  | .load name => (env, .ok ((env.lookup? name).getD .empty))
  | .aggregator a => (env, a.operation.value env.latestFirst env.now)
  | .prefixed op operand =>
    (operand.evaluate units env).andThen fun env v =>
      (env, op.operation.apply units env.now.date v)
  | .infixed op left right =>
    (left.evaluate units env).andThen fun env x =>
      (right.evaluate units env).andThen fun env y =>
        (env, op.operation.apply units x y)
  | .call function args =>
    (evaluateAll units env args).andThen fun env values =>
      (env, function.onValues units values)
  | .assign name value =>
    (value.evaluate units env).andThen fun env v =>
      if v.isStorable then (env.assign name v, .ok v) else (env, .error .notAssignable)

/-- The values of trees, one after the other. -/
def evaluateAll (units : Registry) (env : Environment) : List Expression → Outcome (List Value)
  | [] => (env, .ok [])
  | first :: others =>
    (first.evaluate units env).andThen fun env v =>
      (evaluateAll units env others).andThen fun env values =>
        (env, .ok (v :: values))

end

theorem length_of_evaluateAll {units : Registry} {env after : Environment} {args : List Expression}
    {values : List Value} (h : evaluateAll units env args = (after, .ok values)) :
    values.length = args.length := by
  induction args generalizing env values with
  | nil =>
    cases h
    rfl
  | cons first others ih =>
    simp only [evaluateAll, Outcome.andThen_eq_ok] at h
    obtain ⟨_, v, _, _, rest, hrest, hvalues⟩ := h
    cases hvalues
    rw [List.length_cons, List.length_cons, ih hrest]

end Expression

namespace Machine

variable {units : Registry}

/-! ## The machine follows the tree -/

/-- An opcode that puts one value on the stack, or fails in the same environment. -/
theorem steps_of_step_eq_map {env : Environment} {operands stack : List Value} {op : Opcode}
    {result : Except EvalError Value}
    (hstep : step units ⟨env, operands⟩ op = result.map fun v => ⟨env, v :: stack⟩) (rest : Plan) :
    steps units ⟨env, operands⟩ (op :: rest) =
      Outcome.andThen (env, result) fun env v => steps units ⟨env, v :: stack⟩ rest := by
  rw [steps, hstep]
  cases result <;> rfl

theorem step_unary {env : Environment} {v : Value} {stack : List Value} {op : UnaryOperator} :
    step units ⟨env, v :: stack⟩ (.operator (.unary op)) =
      (op.operation.apply units env.now.date v).map fun v => ⟨env, v :: stack⟩ := by
  simp only [step, applyOperator]
  cases op.operation.apply units env.now.date v <;> rfl

theorem step_binary {env : Environment} {x y : Value} {stack : List Value} {op : BinaryOperator} :
    step units ⟨env, y :: x :: stack⟩ (.operator (.binary op)) =
      (op.operation.apply units x y).map fun v => ⟨env, v :: stack⟩ := by
  simp only [step, applyOperator]
  cases op.operation.apply units x y <;> rfl

theorem applyCall_reverse_append (function : Function) (values stack : List Value) :
    applyCall units function values.length (values.reverse ++ stack) =
      (function.onValues units values).map (· :: stack) := by
  match values with
  | [] | [_] | [_, _] => rfl
  | _ :: _ :: _ :: _ => simp [applyCall, Function.onValues, Except.map]

theorem step_call {env : Environment} {values stack : List Value} {function : Function} :
    step units ⟨env, values.reverse ++ stack⟩ (.call function values.length) =
      (function.onValues units values).map fun v => ⟨env, v :: stack⟩ := by
  simp only [step, applyCall_reverse_append]
  cases function.onValues units values <;> rfl

theorem steps_assign {env : Environment} {v : Value} {stack : List Value} {name : String}
    (rest : Plan) :
    steps units ⟨env, v :: stack⟩ (.assign name :: rest) =
      Outcome.andThen
        (if v.isStorable then (env.assign name v, .ok v) else (env, .error .notAssignable))
        fun env v => steps units ⟨env, v :: stack⟩ rest := by
  simp only [steps, step]
  split
  · rename_i hstep
    split at hstep <;> cases hstep
    rename_i hstorable
    rw [if_pos hstorable]
    rfl
  · rename_i hstep
    split at hstep <;> cases hstep
    rename_i hstorable
    rw [if_neg hstorable]
    rfl

theorem steps_postorderAll {args : List Expression}
    (hargs : ∀ arg ∈ args, ∀ (env : Environment) (stack : List Value) (rest : Plan),
      steps units ⟨env, stack⟩ (arg.postorder ++ rest) =
        (arg.evaluate units env).andThen fun env v => steps units ⟨env, v :: stack⟩ rest)
    (env : Environment) (stack : List Value) (rest : Plan) :
    steps units ⟨env, stack⟩ (Expression.postorderAll args ++ rest) =
      (Expression.evaluateAll units env args).andThen fun env values =>
        steps units ⟨env, values.reverse ++ stack⟩ rest := by
  -- the values come in reverse, since the stack has the latest on top
  induction args generalizing env stack with
  | nil => rfl
  | cons first others ih =>
    obtain ⟨hfirst, hothers⟩ := List.forall_mem_cons.1 hargs
    simp only [Expression.postorderAll, Expression.evaluateAll, List.append_assoc, hfirst,
      ih hothers, Outcome.andThen_assoc]
    congr 1
    funext env v
    congr 1
    funext env values
    simp [Outcome.andThen]

/-- Within a longer plan, the opcodes of a tree put its value on the stack, or fail as it does. -/
theorem steps_postorder (e : Expression) (env : Environment) (stack : List Value) (rest : Plan) :
    steps units ⟨env, stack⟩ (e.postorder ++ rest) =
      (e.evaluate units env).andThen fun env v => steps units ⟨env, v :: stack⟩ rest := by
  -- what is below on the stack and what comes after in the plan vary with every operand
  induction e generalizing env stack rest with
  | number value unit => cases unit <;> rfl
  | date | time | load => rfl
  | aggregator a =>
    have hstep : step units ⟨env, stack⟩ (.aggregator a) =
        (a.operation.value env.latestFirst env.now).map fun v => ⟨env, v :: stack⟩ := rfl
    exact steps_of_step_eq_map hstep rest
  | prefixed op operand ih =>
    simp only [Expression.postorder, Expression.evaluate, List.append_assoc, ih,
      Outcome.andThen_assoc]
    congr 1
    funext env v
    exact steps_of_step_eq_map step_unary rest
  | infixed op left right ihleft ihright =>
    simp only [Expression.postorder, Expression.evaluate, List.append_assoc, ihleft, ihright,
      Outcome.andThen_assoc]
    congr 1
    funext env x
    congr 1
    funext env y
    exact steps_of_step_eq_map step_binary rest
  | call function args ih =>
    simp only [Expression.postorder, Expression.evaluate, List.append_assoc, steps_postorderAll ih,
      Outcome.andThen_assoc]
    -- the opcode counts the arguments of the tree, and there is one value for each
    refine Outcome.andThen_congr fun env values hvalues => ?_
    rw [← Expression.length_of_evaluateAll hvalues]
    exact steps_of_step_eq_map step_call rest
  | assign name value ih =>
    simp only [Expression.postorder, Expression.evaluate, List.append_assoc, ih,
      Outcome.andThen_assoc]
    congr 1
    funext env v
    exact steps_assign rest

end Machine

/-! ## What an evaluation keeps -/

/-- Whether a value can be the result of a line that does not fail. -/
def Value.isResult : Value → Bool
  | .number _ | .moment _ _ | .empty => true
  | .marker _ | .failed _ => false

theorem Value.isResult_of_isStorable {v : Value} (h : v.isStorable = true) : v.isResult = true := by
  cases v <;> first | rfl | cases h

theorem MadeFrom.isResult {units : Registry} {sources : List Value} {v : Value}
    (h : MadeFrom units sources v) : v.isResult = true := by
  cases h with
  | kept _ hstorable => exact Value.isResult_of_isStorable hstorable
  | number | moved | clock | date | empty => rfl

/-- Every variable holds a value that can be kept in one. -/
def Environment.VariablesStorable (env : Environment) : Prop :=
  ∀ name v, env.lookup? name = some v → v.isStorable = true

theorem Environment.VariablesStorable.assign {env : Environment} (h : env.VariablesStorable)
    {v : Value} (hv : v.isStorable = true) (name : String) :
    (env.assign name v).VariablesStorable := by
  intro other w hlookup
  rw [lookup?_assign] at hlookup
  split at hlookup
  · cases hlookup
    exact hv
  · exact h other w hlookup

/-- What an evaluation that starts in `env` may leave: only variables have changed. -/
structure Environment.OnlyAssigned (env after : Environment) : Prop where
  storable : env.VariablesStorable → after.VariablesStorable
  history : after.latestFirst = env.latestFirst
  clock : after.now = env.now

namespace Environment.OnlyAssigned

theorem refl (env : Environment) : env.OnlyAssigned env :=
  ⟨id, rfl, rfl⟩

theorem trans {env next after : Environment} (h : env.OnlyAssigned next)
    (hnext : next.OnlyAssigned after) : env.OnlyAssigned after :=
  ⟨hnext.storable ∘ h.storable, hnext.history.trans h.history, hnext.clock.trans h.clock⟩

theorem assign (env : Environment) (name : String) {v : Value} (hv : v.isStorable = true) :
    env.OnlyAssigned (env.assign name v) :=
  ⟨fun h => h.assign hv name, rfl, rfl⟩

theorem andThen {α β : Type} {env : Environment} {outcome : Outcome α}
    {next : Environment → α → Outcome β} (h : env.OnlyAssigned outcome.1)
    (hnext : ∀ (after : Environment) (a : α), after.OnlyAssigned (next after a).1) :
    env.OnlyAssigned (outcome.andThen next).1 := by
  obtain ⟨after, _ | a⟩ := outcome
  · exact h
  · exact h.trans (hnext after a)

end Environment.OnlyAssigned

namespace Expression

variable {units : Registry}

theorem onlyAssigned_evaluateAll {args : List Expression}
    (hargs : ∀ arg ∈ args, ∀ env : Environment, env.OnlyAssigned (arg.evaluate units env).1)
    (env : Environment) : env.OnlyAssigned (evaluateAll units env args).1 := by
  induction args generalizing env with
  | nil => exact .refl env
  | cons first others ih =>
    obtain ⟨hfirst, hothers⟩ := List.forall_mem_cons.1 hargs
    exact (hfirst env).andThen fun next _ => (ih hothers next).andThen fun after _ => .refl after

/-- Evaluating a tree changes nothing but variables. -/
theorem onlyAssigned_evaluate (e : Expression) (env : Environment) :
    env.OnlyAssigned (e.evaluate units env).1 := by
  induction e generalizing env with
  | number value unit => cases unit <;> exact .refl env
  | date | time | load | aggregator => exact .refl env
  | prefixed op operand ih => exact (ih env).andThen fun after _ => .refl after
  | infixed op left right ihleft ihright =>
    exact (ihleft env).andThen fun next _ => (ihright next).andThen fun after _ => .refl after
  | call function args ih =>
    exact (onlyAssigned_evaluateAll ih env).andThen fun after _ => .refl after
  | assign name value ih =>
    refine (ih env).andThen fun after v => ?_
    split
    · rename_i hstorable
      exact .assign after name hstorable
    · exact .refl after

theorem isResult_of_onValues {function : Function} {values : List Value} {v : Value}
    (h : function.onValues units values = .ok v) : v.isResult = true := by
  match values with
  | [] => cases h
  | [_] | [_, _] => exact (BinaryOperation.madeFrom_of_apply h).isResult
  | _ :: _ :: _ :: _ => cases h

theorem isResult_of_evaluate {e : Expression} {env after : Environment} {v : Value}
    (henv : env.VariablesStorable) (h : e.evaluate units env = (after, .ok v)) :
    v.isResult = true := by
  cases e with
  | number value unit => cases unit <;> cases h <;> rfl
  | date | time =>
    cases h
    rfl
  | load name =>
    cases h
    cases hlookup : env.lookup? name with
    | none => rfl
    | some v => exact Value.isResult_of_isStorable (henv name v hlookup)
  | aggregator a =>
    obtain ⟨_, hvalue⟩ := Prod.mk.inj h
    have hmade : MadeFrom units env.latestFirst v := Aggregate.madeFrom_of_value hvalue
    exact hmade.isResult
  | prefixed op operand =>
    obtain ⟨_, x, _, h⟩ := Outcome.andThen_eq_ok.1 h
    exact (UnaryOperation.madeFrom_of_apply (Prod.mk.inj h).2).isResult
  | infixed op left right =>
    obtain ⟨_, x, _, h⟩ := Outcome.andThen_eq_ok.1 h
    obtain ⟨_, y, _, h⟩ := Outcome.andThen_eq_ok.1 h
    exact (BinaryOperation.madeFrom_of_apply (Prod.mk.inj h).2).isResult
  | call function args =>
    obtain ⟨_, values, _, h⟩ := Outcome.andThen_eq_ok.1 h
    exact isResult_of_onValues (Prod.mk.inj h).2
  | assign name value =>
    obtain ⟨_, x, _, h⟩ := Outcome.andThen_eq_ok.1 h
    split at h <;> cases h
    rename_i hstorable
    exact Value.isResult_of_isStorable hstorable

end Expression

theorem Machine.result_of_isResult {v : Value} (h : v.isResult = true) :
    Machine.result [v] = .ok v := by
  cases v <;> first | rfl | cases h

/--
Running the plan of a tree is evaluating the tree: the same value or the same failure, and the same
variables, with every assignment before a failure in place; the history of lines and the clock stay.
Within a longer plan and above any stack, the opcodes of the tree put its value on the stack, or
fail as it does.
-/
theorem run_postorder (units : Registry) (env : Environment) (henv : env.VariablesStorable)
    (e : Expression) :
    Machine.run units env e.postorder = e.evaluate units env ∧
      (e.evaluate units env).1.lines = env.lines ∧
      (e.evaluate units env).1.now = env.now ∧
      ∀ (stack : List Value) (rest : Plan),
        Machine.steps units ⟨env, stack⟩ (e.postorder ++ rest) =
          match e.evaluate units env with
          | (after, .ok v) => Machine.steps units ⟨after, v :: stack⟩ rest
          | (after, .error failure) => (after, .error failure) := by
  have hrun : Machine.run units env e.postorder = e.evaluate units env := by
    have hsteps : Machine.steps units ⟨env, []⟩ (e.postorder ++ []) = _ :=
      Machine.steps_postorder e env [] []
    rw [List.append_nil] at hsteps
    simp only [Machine.run, hsteps]
    rcases hvalue : e.evaluate units env with ⟨after, failure | v⟩
    · rfl
    · have hresult := Machine.result_of_isResult (Expression.isResult_of_evaluate henv hvalue)
      simp only [Outcome.andThen, Machine.steps, Except.bind, hresult]
  have honly : env.OnlyAssigned (e.evaluate units env).1 := e.onlyAssigned_evaluate env
  have hlines : (e.evaluate units env).1.lines = env.lines := by
    rw [Environment.lines, Environment.lines, honly.history]
  refine ⟨hrun, hlines, honly.clock, fun stack rest => ?_⟩
  rw [Machine.steps_postorder]
  rcases e.evaluate units env with ⟨after, _ | v⟩ <;> rfl

/-- In `(y = x) + 1 / 0` the quotient fails after the assignment, which stays. -/
theorem run_postorder_failing_sum :
    Machine.run .empty ((Environment.fresh default).assign "x" (.plain .ten))
        (Expression.infixed ⟨"+", 2, .left, false, .arithmetic .add⟩ (.assign "y" (.load "x"))
          (.infixed ⟨"/", 3, .left, false, .arithmetic .divide⟩ (.number .one none)
            (.number .zero none))).postorder =
      (((Environment.fresh default).assign "x" (.plain .ten)).assign "y" (.plain .ten),
        .error .divisionByZero) := by
  have hvariables : ((Environment.fresh default).assign "x" (.plain .ten)).VariablesStorable := by
    refine Environment.VariablesStorable.assign ?_ rfl "x"
    intro name v hlookup
    cases hlookup
  exact (run_postorder .empty _ hvariables _).1.trans rfl

end LineCalc
