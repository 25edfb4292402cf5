import LineCalc.Proofs.Decimal.Nearest
import LineCalc.Proofs.History
import LineCalc.Proofs.ReadBack
import LineCalc.Proofs.Words

/-!
# Totals are sums

The total of the numbers directly above is what typing their sum gives. A number that `+` rejects
after the total so far is left out, so the sum to type is that of the accepted ones, and lines with
rejected ones can be taken away. The mean is the total divided by the number of all of them.

* **`accepted`**: the quantities of a run that can be added one after the other.
* **`foldl_addOrKeep_accepted`**, **`evaluate_sumOf`**: the total is that of the accepted ones, and
  the value of the tree that adds them up.
* **`exists_written_sum`**: the line `x + y + z` writes that tree, whatever free words stand in it.
* **`Calculator.evaluate_sum`**: what `sum` and `average` give.
-/

namespace LineCalc

open Text Lexicon

/-! ## The quantities that count -/

/-- The quantities that `+` accepts, each added to the total of those before it. -/
def acceptedAfter (total : Value) : List Quantity → List Quantity
  | [] => []
  | next :: rest =>
    match add total (.number next) with
    | .ok sum => next :: acceptedAfter sum rest
    | .error _ => acceptedAfter total rest

/-- The quantities of a run that make up its total: the first one, and those that can be added. -/
def accepted : List Quantity → List Quantity
  | [] => []
  | first :: rest => first :: acceptedAfter (.number first) rest

theorem add_number (a b : Quantity) :
    add (.number a) (.number b) = (Arithmetic.add.onQuantities a b).map .number :=
  Arithmetic.onValues_number .add a b

/-- A quantity is accepted and the total grows by it, or it is rejected and the total stays. -/
theorem acceptedAfter_cons (total next : Quantity) (rest : List Quantity) :
    (∃ sum, add (.number total) (.number next) = .ok (.number sum) ∧ addOrKeep total next = sum ∧
        acceptedAfter (.number total) (next :: rest) = next :: acceptedAfter (.number sum) rest) ∨
      (addOrKeep total next = total ∧
        acceptedAfter (.number total) (next :: rest) = acceptedAfter (.number total) rest) := by
  rw [acceptedAfter, addOrKeep, add_number]
  cases Arithmetic.add.onQuantities total next with
  | ok sum => exact .inl ⟨sum, rfl, rfl, rfl⟩
  | error e => exact .inr ⟨rfl, rfl⟩

/-- The rejected quantities add nothing to the total. -/
theorem foldl_addOrKeep_accepted (total : Quantity) (rest : List Quantity) :
    (acceptedAfter (.number total) rest).foldl addOrKeep total = rest.foldl addOrKeep total := by
  induction rest generalizing total with
  | nil => rfl
  | cons next rest ih =>
    rcases acceptedAfter_cons total next rest with ⟨sum, -, hsum, haccepted⟩ | ⟨hkeep, hrejected⟩
    · rw [haccepted, List.foldl_cons, List.foldl_cons, hsum, ih]
    · rw [hrejected, List.foldl_cons, hkeep, ih]

/-! ## The tree of a sum -/

namespace Standard

/-- The operator of sums. -/
def plus : BinaryOperator where
  symbol := "+"
  precedence := additivePrecedence
  associativity := .left
  isConversion := false
  operation := .arithmetic .add

theorem find?_plus : Config.standard.binaryOperators.find? "+" = some plus := rfl

/-- A tree with the values of names added to it, from left to right. -/
def sumOf (first : Expression) (names : List String) : Expression :=
  names.foldl (fun e name => .infixed plus e (.load name)) first

theorem sumOf_cons (first : Expression) (name : String) (names : List String) :
    sumOf first (name :: names) = sumOf (.infixed plus first (.load name)) names := rfl

/-- Adding up the accepted quantities of a run gives its total. -/
theorem evaluate_sumOf {units : Registry} {env : Environment} {e : Expression} {total : Quantity}
    {rest : List Quantity} {names : List String}
    (hfirst : e.evaluate units env = (env, .ok (.number total)))
    (hnames : List.Forall₂ (fun name q => env.lookup? name = some (.number q)) names
      (acceptedAfter (.number total) rest)) :
    (sumOf e names).evaluate units env = (env, .ok (.number (rest.foldl addOrKeep total))) := by
  -- induction on the run: the tree so far has the total so far as its value
  induction rest generalizing e total names with
  | nil =>
    cases hnames
    exact hfirst
  | cons next rest ih =>
    rcases acceptedAfter_cons total next rest with ⟨sum, hadd, hsum, haccepted⟩ | ⟨hkeep, hrejected⟩
    · rw [haccepted] at hnames
      obtain ⟨name, others, hname, hothers, rfl⟩ := List.forall₂_cons_right_iff.1 hnames
      have hnext : (Expression.infixed plus e (.load name)).evaluate units env =
          (env, .ok (.number sum)) := by
        simp only [Expression.evaluate, hfirst, Outcome.andThen, hname, Option.getD_some]
        exact congrArg (Prod.mk env) hadd
      rw [List.foldl_cons, hsum, sumOf_cons]
      exact ih hnext hothers
    · rw [hrejected] at hnames
      rw [List.foldl_cons, hkeep]
      exact ih hfirst hnames

/-! ## The line of a sum -/

/-- What is written after the first of the names in a sum. -/
def addends (names : List String) : List Char :=
  names.flatMap fun name => ' ' :: '+' :: ' ' :: name.toList

theorem toList_intercalate_plus (first : String) (others : List String) :
    (" + ".intercalate (first :: others)).toList = first.toList ++ addends others :=
  toList_intercalate_cons " + " first others

theorem follows_addends (names : List String) : Follows (addends names) := by
  cases names with
  | nil => exact .inl rfl
  | cons name others => exact .inr ⟨_, rfl⟩

/-- The sign of a sum. -/
theorem scan_plus (rest : List Char) (start : Nat) : ∃ sign after,
    lexicon.scan start false (' ' :: '+' :: rest) =
      (⟨.operator, "+", sign⟩ :: (lexicon.scan after false rest).1,
        (lexicon.scan after false rest).2) := by
  have hsign : lexicon.next? false (['+'] ++ rest) = some (.operator, 1) := by
    rw [← withSeparator_point]
    exact next?_symbol (by decide) (by decide) false _
  exact scan_word ⟨'+', [], rfl, by decide⟩ hsign start

/-- The sign and the name that come next in a sum. -/
theorem scan_addend {name : String} (hname : lexicon.FreeWord name.toList) (others : List String)
    (start : Nat) : ∃ sign position after,
      lexicon.scan start false (addends (name :: others)) =
        (⟨.operator, "+", sign⟩ :: ⟨.identifier, name, position⟩ ::
          (lexicon.scan after false (addends others)).1,
          (lexicon.scan after false (addends others)).2) := by
  have hsplit : addends (name :: others) =
      ' ' :: '+' :: ' ' :: (name.toList ++ addends others) := by
    simp [addends]
  obtain ⟨sign, afterSign, hscanSign⟩ := scan_plus (' ' :: (name.toList ++ addends others)) start
  obtain ⟨position, after, hscanName⟩ := scan_word hname.startsWord
    (next?_of_freeWord hname ((follows_addends others).cuts _) false) afterSign
  refine ⟨sign, position, after, ?_⟩
  rw [hsplit, hscanSign, hscanName, String.ofList_toList]

/-- What comes after the start of a sum adds the names to the tree of the start. -/
theorem exists_written_addends {e : Expression} {done : List Token} {openOps : List Operator}
    (hdone : Written Config.standard e done openOps)
    (hends : ∀ inner ∈ openOps, inner.EndsBefore plus) {names : List String}
    (hnames : ∀ name ∈ names, lexicon.FreeWord name.toList) (start : Nat) :
    ∃ tokens openOps, lexicon.scan start false (addends names) = (tokens, none) ∧
      Written Config.standard (sumOf e names) (done ++ tokens) openOps := by
  -- induction on the names: what has been read is the left operand of what comes next
  induction names generalizing e done openOps start with
  | nil =>
    refine ⟨[], openOps, scan_of_blank rfl, ?_⟩
    rw [List.append_nil]
    exact hdone
  | cons name others ih =>
    obtain ⟨hname, hothers⟩ := List.forall_mem_cons.1 hnames
    obtain ⟨sign, position, after, hscan⟩ := scan_addend hname others start
    have hload : Written Config.standard (.load name) [⟨.identifier, name, position⟩] [] :=
      @Written.load _ ⟨.identifier, name, position⟩ rfl
    have hsum : Written Config.standard (.infixed plus e (.load name))
        (done ++ [⟨.operator, "+", sign⟩, ⟨.identifier, name, position⟩]) [.binary plus] :=
      @Written.infixed _ ⟨.operator, "+", sign⟩ _ _ _ _ _ _ _ hdone hends rfl find?_plus hload
        (by simp [FitsRightOf])
    have hleft : ∀ inner ∈ [Operator.binary plus], inner.EndsBefore plus := by
      simp [Operator.EndsBefore, Operator.precedence, plus]
    obtain ⟨tokens, openOps, hmore, hwritten⟩ := ih hsum hleft hothers after
    rw [hmore] at hscan
    refine ⟨_, openOps, hscan, ?_⟩
    rw [List.append_assoc] at hwritten
    exact hwritten

/-- A line that adds up names writes the tree of the sum. -/
theorem exists_written_sum {first : String} {others : List String}
    (hfirst : lexicon.FreeWord first.toList)
    (hothers : ∀ name ∈ others, lexicon.FreeWord name.toList) :
    ∃ tokens openOps, lexicon.lex (" + ".intercalate (first :: others)) = .ok tokens ∧
      Written Config.standard (sumOf (.load first) others) tokens openOps := by
  have hstart := hfirst.startsWord
  obtain ⟨position, after, hscan⟩ := scan_token hstart.ne_nil
    (hstart.trimStart_append (addends others))
    (next?_of_freeWord hfirst ((follows_addends others).cuts _) true) 0
  have hload : Written Config.standard (.load first) [⟨.identifier, first, position⟩] [] :=
    @Written.load _ ⟨.identifier, first, position⟩ rfl
  obtain ⟨tokens, openOps, hmore, hwritten⟩ :=
    exists_written_addends hload (by simp) hothers after
  rw [hmore, String.ofList_toList] at hscan
  refine ⟨⟨.identifier, first, position⟩ :: tokens, openOps, ?_, hwritten⟩
  rw [lex_eq_ok, toList_intercalate_plus, hscan]

end Standard

/-! ## What the aggregators give -/

theorem numericRun_of_lines {env : Environment} {before : List Value} {run : List Quantity}
    (hbefore : ∀ v ∈ before.getLast?, v.isNumber = false)
    (henv : env.lines = before ++ run.map .number) : numericRun env.latestFirst = run := by
  have hlatest : env.latestFirst = (run.map Value.number).reverse ++ before.reverse := by
    rw [← Environment.reverse_lines, henv, List.reverse_append]
  -- the run ends where the lines before it do, or at the last of them
  have htake : (before.reverse).takeWhile Value.isNumber = [] := by
    rw [← List.head?_reverse] at hbefore
    cases hreverse : before.reverse with
    | nil => rfl
    | cons v rest =>
      rw [hreverse] at hbefore
      rw [List.takeWhile_cons, hbefore v rfl, if_neg Bool.noConfusion]
  have hnumbers : ∀ v ∈ (run.map Value.number).reverse, v.isNumber = true := by
    intro v hv
    obtain ⟨q, -, rfl⟩ := List.mem_map.1 (List.mem_reverse.1 hv)
    rfl
  have hquantities : (run.map Value.number).filterMap Value.quantity? = run := by
    rw [List.filterMap_map]
    exact List.filterMap_some
  rw [numericRun, hlatest, List.takeWhile_append_of_pos hnumbers, htake, List.append_nil,
    List.filterMap_reverse, hquantities, List.reverse_reverse]

/-- A plain number has the same magnitude in any unit. -/
theorem convertTo_plain (d : Decimal) (target : MeasureUnit) :
    ∃ unit, Quantity.convertTo ⟨d, .unitless⟩ target = .ok ⟨d, unit⟩ := by
  unfold Quantity.convertTo
  split
  · exact ⟨.unitless, rfl⟩
  · exact ⟨target, rfl⟩

theorem Arithmetic.divide_plain (total : Quantity) {count : Decimal}
    (hcount : count.isZero = false) :
    Arithmetic.divide.onQuantities total ⟨count, .unitless⟩ =
      (inRange (total.value.div? count)).map fun value => { total with value } := by
  have hpercent : MeasureUnit.unitless.isPercent = false := rfl
  have hplain : MeasureUnit.unitless.isUnitless = true := rfl
  obtain ⟨unit, hconvert⟩ := convertTo_plain count total.unit
  have halign : Arithmetic.divide.align total ⟨count, .unitless⟩ =
      .ok (total.value, count, total.unit) := by
    simp [align, mixes, isAdditive, hplain, hconvert]
  simp only [onQuantities, hpercent, Bool.false_and, Bool.false_eq_true, if_false, halign,
    onDecimals, hcount, bind, Except.bind]
  cases inRange (total.value.div? count) <;> rfl

/-- The length of a run that has a total is a decimal, and at least one. -/
theorem exists_length {run : List Quantity} (hlength : run.length < mantissaBound)
    {total : Quantity} (htotal : runTotal run = some total) :
    ∃ count, Decimal.ofScaled? run.length 0 = some count ∧ 1 ≤ |count.toRat| := by
  obtain ⟨count, hcount, hrat⟩ := Decimal.exists_count hlength
  have hpos : 1 ≤ run.length := by
    cases run with
    | nil => cases htotal
    | cons first rest => exact Nat.succ_pos _
  refine ⟨count, hcount, ?_⟩
  rw [hrat, Nat.abs_cast]
  exact_mod_cast hpos

/-- A run that has a total has a mean, which is the total divided by the length of the run. -/
theorem exists_mean {run : List Quantity} (hlength : run.length < mantissaBound) {total : Quantity}
    (htotal : runTotal run = some total) :
    ∃ count mean, Decimal.ofScaled? run.length 0 = some count ∧
      Arithmetic.divide.onQuantities total ⟨count, .unitless⟩ = .ok mean ∧
      runAverage run = .ok mean := by
  obtain ⟨count, hcount, hone⟩ := exists_length hlength htotal
  -- a total divided by at least one is in range
  obtain ⟨mean, hmean⟩ := total.value.exists_div? hone
  refine ⟨count, { total with value := mean }, hcount, ?_, ?_⟩
  · rw [Arithmetic.divide_plain total (Decimal.isZero_of_one_le hone), hmean]
    rfl
  · simp only [runAverage, htotal, hcount, Option.bind_some, hmean]
    rfl

namespace Calculator

theorem compile_sum :
    ((ofConfig .standard).compile "sum").toOption = some [.aggregator ⟨"sum", .sum⟩] ∧
      ((ofConfig .standard).compile "average").toOption =
        some [.aggregator ⟨"average", .average⟩] := by
  have hsum : (ofConfig .standard).lexicon.lex "sum" = .ok [⟨.aggregator, "sum", 0⟩] :=
    Lexicon.lex_eq_ok.2 (by decide +kernel)
  have haverage : (ofConfig .standard).lexicon.lex "average" = .ok [⟨.aggregator, "average", 0⟩] :=
    Lexicon.lex_eq_ok.2 (by decide +kernel)
  unfold compile
  rw [hsum, haverage]
  decide +kernel

/-- The line of an aggregator gives what the aggregator does, if that is a quantity. -/
theorem evaluate_aggregator {c : Calculator} {line : String} {a : Aggregator}
    (hcompile : c.compile line = .ok [.aggregator a]) {env : Environment} {q : Quantity}
    (hvalue : a.operation.value env.latestFirst env.now = .ok (.number q)) :
    (c.evaluate env line).2 = .number q := by
  have heval : (Expression.aggregator a).evaluate c.config.units env = (env, .ok (.number q)) := by
    rw [Expression.evaluate, hvalue]
  rw [evaluate_of_postorder hcompile rfl heval]

/-- What `sum` gives after a run with a total. -/
theorem evaluate_sum_of_runTotal {env : Environment} {total : Quantity}
    (htotal : runTotal (numericRun env.latestFirst) = some total) :
    ((ofConfig .standard).evaluate env "sum").2 = .number total := by
  refine evaluate_aggregator (toOption_eq_some.1 compile_sum.1) ?_
  rw [Aggregate.value, htotal, Option.getD_some]

/-- What `average` gives after a run with a mean. -/
theorem evaluate_average_of_runAverage {env : Environment} {mean : Quantity}
    (hmean : runAverage (numericRun env.latestFirst) = .ok mean) :
    ((ofConfig .standard).evaluate env "average").2 = .number mean := by
  refine evaluate_aggregator (toOption_eq_some.1 compile_sum.2) ?_
  rw [Aggregate.value, hmean]
  rfl

/-- What a line gives that adds up names, which hold the accepted quantities of a run. -/
theorem evaluate_intercalate_plus {env : Environment} {name : String} {others : List String}
    {first : Quantity} {rest : List Quantity} (hfree : Standard.lexicon.FreeWord name.toList)
    (hothersFree : ∀ other ∈ others, Standard.lexicon.FreeWord other.toList)
    (hname : env.lookup? name = some (.number first))
    (hothers : List.Forall₂ (fun other q => env.lookup? other = some (.number q)) others
      (acceptedAfter (.number first) rest)) :
    ((ofConfig .standard).evaluate env (" + ".intercalate (name :: others))).2 =
      .number (rest.foldl addOrKeep first) := by
  obtain ⟨tokens, openOps, hlex, hwritten⟩ := Standard.exists_written_sum hfree hothersFree
  have hload : (Expression.load name).evaluate Config.standard.units env =
      (env, .ok (.number first)) := by
    rw [Expression.evaluate, hname, Option.getD_some]
  have hsum := Standard.evaluate_sumOf hload hothers
  have hcompile : (ofConfig .standard).compile (" + ".intercalate (name :: others)) =
      .ok (Standard.sumOf (.load name) others).postorder :=
    compile_of_written hlex hwritten
  rw [evaluate_of_postorder hcompile rfl hsum]

/--
`sum` is typing the additions: after lines that end in a run of numbers it gives what the sum of
names gives that hold the accepted ones in order, and without the lines of the others it gives the
same. `average` gives the total divided by the number of lines in the run, accepted or not.
-/
theorem evaluate_sum {env other pruned : Environment} {before : List Value} {run : List Quantity}
    {names : List String} (hbefore : ∀ v ∈ before.getLast?, v.isNumber = false)
    (henv : env.lines = before ++ run.map .number) (hrun : run ≠ [])
    (hnames : List.Forall₂ (fun name q => (ofConfig .standard).lexicon.FreeWord name.toList ∧
      other.lookup? name = some (.number q)) names (accepted run))
    (hpruned : pruned.lines = before ++ (accepted run).map .number) :
    ∃ total, ((ofConfig .standard).evaluate env "sum").2 = .number total ∧
      ((ofConfig .standard).evaluate other (" + ".intercalate names)).2 = .number total ∧
      ((ofConfig .standard).evaluate pruned "sum").2 = .number total ∧
      (run.length < mantissaBound → ∃ count mean, Decimal.ofScaled? run.length 0 = some count ∧
        Arithmetic.divide.onQuantities total ⟨count, .unitless⟩ = .ok mean ∧
        ((ofConfig .standard).evaluate env "average").2 = .number mean) := by
  obtain ⟨first, rest, rfl⟩ := List.exists_cons_of_ne_nil hrun
  have htotal : runTotal (first :: rest) = some (rest.foldl addOrKeep first) := rfl
  refine ⟨rest.foldl addOrKeep first, ?_, ?_, ?_, fun hlength => ?_⟩
  · exact evaluate_sum_of_runTotal (by rw [numericRun_of_lines hbefore henv, htotal])
  · obtain ⟨name, others, ⟨hfree, hname⟩, hothers, rfl⟩ := List.forall₂_cons_right_iff.1 hnames
    obtain ⟨hothersFree, hothers⟩ := (List.forall₂_and_left _ _).1 hothers
    exact evaluate_intercalate_plus hfree hothersFree hname hothers
  · have haccepted : runTotal (accepted (first :: rest)) = some (rest.foldl addOrKeep first) := by
      rw [accepted, runTotal, foldl_addOrKeep_accepted]
    exact evaluate_sum_of_runTotal (by rw [numericRun_of_lines hbefore hpruned, haccepted])
  · obtain ⟨count, mean, hcount, hdivide, hmean⟩ := exists_mean hlength htotal
    refine ⟨count, mean, hcount, hdivide, ?_⟩
    exact evaluate_average_of_runAverage (by rw [numericRun_of_lines hbefore henv, hmean])

def cm : MeasureUnit := Standard.simpleUnit "length" "cm" .ten []

def mm : MeasureUnit := Standard.simpleUnit "length" "mm" .one []

def kg : MeasureUnit := Standard.simpleUnit "weight" "kg" .one []

/-- Lines of which the weight cannot be added. -/
def parts : List Quantity :=
  [⟨.ten, cm⟩, ⟨.one, kg⟩, ⟨.ten, mm⟩, ⟨.hundred, .percent⟩]

def partNames : List String := ["part_a", "part_b", "part_c"]

/-- Variables with the other parts. -/
def partVariables : Environment :=
  (((Environment.fresh default).assign "part_a" (.number ⟨.ten, cm⟩)).assign "part_b"
    (.number ⟨.ten, mm⟩)).assign "part_c" (.number ⟨.hundred, .percent⟩)

theorem accepted_parts : accepted parts = [⟨.ten, cm⟩, ⟨.ten, mm⟩, ⟨.hundred, .percent⟩] := by
  decide +kernel

theorem freeWord_of_mem_partNames :
    ∀ name ∈ partNames, Standard.lexicon.FreeWord name.toList := by
  have hwords : ∀ name ∈ partNames, name.toList ≠ [] ∧ name.toList.all isWordChar = true ∧
      lower name.toList ∉
        Standard.lexicon.operators ++ Standard.lexicon.functions ++ Standard.lexicon.aggregators ∧
      Standard.isUnitWord (lower name.toList) = false := by
    decide +kernel
  intro name hname
  obtain ⟨hnil, hchars, hothers, hunits⟩ := hwords name hname
  exact Standard.freeWord_of_not_isUnitWord hnil (List.all_eq_true.1 hchars) hothers hunits

/-- After an empty line and the parts, `sum` is 22 cm, and `average` a fourth of it. -/
theorem evaluate_sum_parts :
    ((ofConfig .standard).evaluate (afterLines (.empty :: parts.map .number)) "sum").2 =
        .number ⟨.ofInt 22, cm⟩ ∧
      ((ofConfig .standard).evaluate partVariables "part_a + part_b + part_c").2 =
        .number ⟨.ofInt 22, cm⟩ ∧
      ((ofConfig .standard).evaluate (afterLines (.empty :: parts.map .number)) "average").2 =
        .number ⟨.ofScaled 550 2, cm⟩ := by
  have hlookups : List.Forall₂ (fun name q => partVariables.lookup? name = some (.number q))
      partNames (accepted parts) := by
    rw [accepted_parts]
    exact .cons rfl (.cons rfl (.cons rfl .nil))
  obtain ⟨total, hsum, hline, -, haverage⟩ :=
    @evaluate_sum (afterLines (.empty :: parts.map .number)) partVariables
      (afterLines (.empty :: (accepted parts).map .number)) [.empty] parts partNames
      (by simp [Value.isNumber]) rfl (List.cons_ne_nil _ _)
      ((List.forall₂_and_left _ _).2 ⟨freeWord_of_mem_partNames, hlookups⟩)
      (by rw [accepted_parts]; rfl)
  obtain ⟨count, mean, hcount, hmean, haverage⟩ := haverage (by decide)
  -- the total and the mean are computed once more, without the calculator
  have htotal : runTotal (numericRun (afterLines (.empty :: parts.map .number)).latestFirst) =
      some ⟨.ofInt 22, cm⟩ := by
    decide +kernel
  have hvalue := evaluate_sum_of_runTotal htotal
  obtain rfl : total = ⟨.ofInt 22, cm⟩ := Value.number.inj (hsum.symm.trans hvalue)
  cases hcount
  have hquotient : (Arithmetic.divide.onQuantities ⟨.ofInt 22, cm⟩
      ⟨.ofScaled 4 0, .unitless⟩).toOption = some ⟨.ofScaled 550 2, cm⟩ := by
    decide +kernel
  obtain rfl : mean = ⟨.ofScaled 550 2, cm⟩ :=
    Except.ok.inj (hmean.symm.trans (toOption_eq_some.1 hquotient))
  exact ⟨hsum, hline, haverage⟩

end Calculator

end LineCalc
