import LineCalc.Calculator
import LineCalc.Config.Standard
import LineCalc.Proofs.Lexing

/-!
# How far back a line sees

Only aggregators read what earlier lines have recorded, and they read little of it: the line directly
above, and the numbers above it, back to the last line that is not a number. So a line that is not a
number hides everything before it, whatever plan is run after it.

* **`Environment.Agrees`**: environments that no plan can tell apart.
* **`step_agrees`**, **`steps_agrees`**: an opcode and a run do the same in environments that agree.
* **`agrees_of_barrier`**: environments agree that have the same lines from a line on that is not a
  number.
* **`Calculator.run_local`**: plans and lines see nothing before such a line.
-/

namespace LineCalc

/-! ## Environments that agree -/

/-- The same clock and variables, and the same as far as an aggregator reads the history. -/
structure Environment.Agrees (env other : Environment) : Prop where
  clock : env.now = other.now
  stored : ∀ name, env.lookup? name = other.lookup? name
  run : numericRun env.latestFirst = numericRun other.latestFirst
  last : env.latestFirst.head? = other.latestFirst.head?

theorem Environment.Agrees.assign {env other : Environment} (h : env.Agrees other) (name : String)
    (v : Value) : (env.assign name v).Agrees (other.assign name v) where
  clock := h.clock
  stored := by
    intro x
    rw [lookup?_assign, lookup?_assign, h.stored x]
  run := h.run
  last := h.last

/-- An aggregator reads the numbers directly above, the last line and the clock. -/
theorem Aggregate.value_congr {history other : List Value}
    (hrun : numericRun history = numericRun other) (hlast : history.head? = other.head?)
    (a : Aggregate) (now : Instant) : a.value history now = a.value other now := by
  cases a with
  | sum | average => simp only [value, hrun]
  | prev =>
    -- either both histories are empty, or their last lines are the same
    cases history <;> cases other <;> simp only [List.head?_nil, List.head?_cons, reduceCtorEq,
      Option.some.injEq] at hlast
    · rfl
    · subst hlast
      rfl
  | now | today | tomorrow | yesterday => rfl

/-! ## Two runs side by side -/

namespace Machine

variable (units : Registry) {env other : Environment}

/-- An opcode fails alike in both environments, or leaves one stack and environments that agree. -/
def StepAgrees (env other : Environment) (stack : List Value) (op : Opcode) :
    Prop :=
  (∃ e, step units ⟨env, stack⟩ op = .error e ∧ step units ⟨other, stack⟩ op = .error e) ∨
    ∃ next next' after, step units ⟨env, stack⟩ op = .ok ⟨next, after⟩ ∧
      step units ⟨other, stack⟩ op = .ok ⟨next', after⟩ ∧ next.Agrees next'

/-- So does an opcode that computes the same stack and leaves the environment alone. -/
theorem StepAgrees.of_map (h : env.Agrees other) {stack : List Value} {op : Opcode}
    (after : Except EvalError (List Value))
    (hstep : step units ⟨env, stack⟩ op = after.map fun next => ⟨env, next⟩)
    (hstep' : step units ⟨other, stack⟩ op = after.map fun next => ⟨other, next⟩) :
    StepAgrees units env other stack op := by
  cases after with
  | error e => exact .inl ⟨e, hstep, hstep'⟩
  | ok next => exact .inr ⟨env, other, next, hstep, hstep', h⟩

theorem step_agrees (h : env.Agrees other) (stack : List Value) (op : Opcode) :
    StepAgrees units env other stack op := by
  cases op with
  | number value => exact .of_map units h (.ok (.plain value :: stack)) rfl rfl
  | date d => exact .of_map units h (.ok (.ofDate d :: stack)) rfl rfl
  | time t =>
    refine .of_map units h (.ok (.moment ⟨env.now.date, t⟩ true :: stack)) rfl ?_
    rw [h.clock]
    rfl
  | unit u => exact .of_map units h (.ok (applyUnit u stack)) rfl rfl
  | load name =>
    refine .of_map units h (.ok ((env.lookup? name).getD .empty :: stack)) rfl ?_
    rw [h.stored name]
    rfl
  | operator op =>
    refine .of_map units h (applyOperator units env.now.date op stack) rfl ?_
    rw [h.clock]
    rfl
  | call function args =>
    exact .of_map units h (applyCall units function args stack) rfl rfl
  | aggregator a =>
    have hvalue : a.operation.value other.latestFirst other.now =
        a.operation.value env.latestFirst env.now := by
      rw [h.clock, Aggregate.value_congr h.run h.last]
    refine .of_map units h
      ((a.operation.value env.latestFirst env.now).map (· :: stack)) ?_ ?_
    · rw [step]
      cases a.operation.value env.latestFirst env.now <;> rfl
    · rw [step, hvalue]
      cases a.operation.value env.latestFirst env.now <;> rfl
  | assign name =>
    cases stack with
    | nil => exact .inl ⟨.notAssignable, rfl, rfl⟩
    | cons v rest =>
      simp only [StepAgrees, step]
      -- the same value is stored in both environments, or in none
      split
      · exact .inr ⟨_, _, v :: rest, rfl, rfl, h.assign name v⟩
      · exact .inl ⟨.notAssignable, rfl, rfl⟩

/-- A run in environments that agree gives the same and leaves environments that agree. -/
theorem steps_agrees (h : env.Agrees other) (stack : List Value) (plan : Plan) :
    (steps units ⟨env, stack⟩ plan).2 = (steps units ⟨other, stack⟩ plan).2 ∧
      (steps units ⟨env, stack⟩ plan).1.Agrees (steps units ⟨other, stack⟩ plan).1 := by
  -- induction on the plan: what a step keeps is that the stacks are the same and that the
  -- environments agree, which is all that the next step needs
  induction plan generalizing env other stack with
  | nil => exact ⟨rfl, h⟩
  | cons op rest ih =>
    rcases step_agrees units h stack op with
      ⟨e, hstep, hstep'⟩ | ⟨next, next', after, hstep, hstep', hnext⟩
    · simp only [steps, hstep, hstep']
      exact ⟨trivial, h⟩
    · simp only [steps, hstep, hstep']
      exact ih hnext after

theorem run_agrees (h : env.Agrees other) (plan : Plan) :
    (run units env plan).2 = (run units other plan).2 ∧
      (run units env plan).1.Agrees (run units other plan).1 := by
  obtain ⟨houtcome, hafter⟩ := steps_agrees units h [] plan
  refine ⟨?_, hafter⟩
  simp only [run, houtcome]

end Machine

/-! ## Lines that hide what is before them -/

theorem numericRun_append_barrier {recent before : List Value} {v : Value} (hv : v.isNumber = false) :
    numericRun (recent ++ v :: before) = numericRun recent := by
  rw [numericRun, numericRun, takeWhile_append_cons hv]

namespace Environment

theorem latestFirst_of_lines {env : Environment} {before recent : List Value} {v : Value}
    (h : env.lines = before ++ [v] ++ recent) :
    env.latestFirst = recent.reverse ++ v :: before.reverse := by
  rw [← reverse_lines, h]
  simp

/-- Environments agree that have the same lines from a line on that is not a number. -/
theorem agrees_of_barrier {env other : Environment} {before before' recent : List Value} {v : Value}
    (hv : v.isNumber = false) (henv : env.lines = before ++ [v] ++ recent)
    (hother : other.lines = before' ++ [v] ++ recent) (hclock : env.now = other.now)
    (hvariables : ∀ name, env.lookup? name = other.lookup? name) : env.Agrees other where
  clock := hclock
  stored := hvariables
  run := by
    rw [latestFirst_of_lines henv, latestFirst_of_lines hother, numericRun_append_barrier hv,
      numericRun_append_barrier hv]
  last := by
    rw [latestFirst_of_lines henv, latestFirst_of_lines hother]
    cases recent.reverse <;> rfl

end Environment

namespace Calculator

theorem evaluate_agrees (c : Calculator) {env other : Environment} (h : env.Agrees other)
    (line : String) :
    (c.evaluate env line).2 = (c.evaluate other line).2 ∧
      ∀ name, (c.evaluate env line).1.lookup? name = (c.evaluate other line).1.lookup? name := by
  unfold evaluate
  cases c.compile line with
  | error e => exact ⟨rfl, h.stored⟩
  | ok plan =>
    obtain ⟨houtcome, hafter⟩ := Machine.run_agrees c.config.units h plan
    -- recording the value changes no variable
    refine ⟨?_, hafter.stored⟩
    simp only [runCompiled, Machine.execute, houtcome]

/--
A run sees nothing before a line that is not a number: with other lines before that line, any plan
gives the same value or the same failure and leaves the same variables, and so does any line.
-/
theorem run_local (c : Calculator) {env other : Environment} {before before' recent : List Value}
    {v : Value} (hv : v.isNumber = false) (henv : env.lines = before ++ [v] ++ recent)
    (hother : other.lines = before' ++ [v] ++ recent) (hclock : env.now = other.now)
    (hvariables : ∀ name, env.lookup? name = other.lookup? name) :
    (∀ plan,
      (Machine.run c.config.units env plan).2 = (Machine.run c.config.units other plan).2 ∧
        ∀ name, (Machine.run c.config.units env plan).1.lookup? name =
          (Machine.run c.config.units other plan).1.lookup? name) ∧
      ∀ line, (c.evaluate env line).2 = (c.evaluate other line).2 ∧
        ∀ name, (c.evaluate env line).1.lookup? name =
          (c.evaluate other line).1.lookup? name := by
  have hagrees : env.Agrees other :=
    Environment.agrees_of_barrier hv henv hother hclock hvariables
  refine ⟨fun plan => ?_, c.evaluate_agrees hagrees⟩
  obtain ⟨houtcome, hafter⟩ := Machine.run_agrees c.config.units hagrees plan
  exact ⟨houtcome, hafter.stored⟩

/-- The environment of lines with these values. -/
def afterLines (lines : List Value) : Environment :=
  lines.foldl Environment.record (.fresh default)

/-- After a failure and the lines 2 and 3, `x = total * prev` is 15 whatever stands before the failure. -/
theorem run_local_total :
    Value.isNumber (.failed "Division by zero") = false ∧
      (Machine.run (ofConfig .standard).config.units
        (afterLines [.plain .hundred, .failed "Division by zero", .plain (.ofInt 2),
          .plain (.ofInt 3)])
        [.aggregator ⟨"total", .sum⟩, .aggregator ⟨"prev", .prev⟩,
          .operator (Standard.binary "*" 3 (.arithmetic .multiply)), .assign "x"]).2 =
        .ok (.plain (.ofInt 15)) := by
  have hbarrier : Value.isNumber (.failed "Division by zero") = false := rfl
  have hlong : (afterLines [.plain .hundred, .failed "Division by zero", .plain (.ofInt 2),
      .plain (.ofInt 3)]).lines =
      [.plain .hundred] ++ [.failed "Division by zero"] ++ [.plain (.ofInt 2), .plain (.ofInt 3)] :=
    rfl
  have hshort : (afterLines [.failed "Division by zero", .plain (.ofInt 2),
      .plain (.ofInt 3)]).lines =
      [] ++ [.failed "Division by zero"] ++ [.plain (.ofInt 2), .plain (.ofInt 3)] :=
    rfl
  have hsame := (run_local (ofConfig .standard) hbarrier hlong hshort rfl (fun _ => rfl)).1
    [.aggregator ⟨"total", .sum⟩, .aggregator ⟨"prev", .prev⟩,
      .operator (Standard.binary "*" 3 (.arithmetic .multiply)), .assign "x"]
  exact ⟨hbarrier, hsame.1.trans (by decide +kernel)⟩

end Calculator

end LineCalc
