import LineCalc.Proofs.Parenthesized
import LineCalc.Proofs.Session
import LineCalc.Proofs.UnitTokens

/-!
# Converting what a text computes

A text in parentheses with `to` or `as` and a unit after it asks for the value of the text in that
unit. The plan of such a line is the plan of the text with the unit and the operator at its end.
When the unit comes, the value of the text is on the stack; a plain number takes the unit at once,
and then the operator finds no unit of its own. So the line gives what `convert` gives exactly for
values that have a unit already.

* **`conversionLine`**: the line that asks for a unit.
* **`lex_conversionLine`**, **`ofTokens_conversion`**: its tokens and its plan.
* **`run_conversion`**: what running the plan gives.
* **`evaluate_conversionLine`**: the value of the line, and when it is that of `convert`.
-/

namespace LineCalc

open Text

/-- The line that asks for the value of a text in a unit. -/
def conversionLine (text keyword name : String) : String :=
  "(" ++ text ++ ") " ++ keyword ++ " " ++ name

/-! ## Tokens -/

namespace Lexicon

variable {lx : Lexicon}

/-- The text starts with a character that is no white space. -/
def StartsWord (text : List Char) : Prop :=
  ∃ c rest, text = c :: rest ∧ isBlank c = false

theorem StartsWord.ne_nil {word : List Char} (h : StartsWord word) : word ≠ [] := by
  obtain ⟨c, rest, rfl, -⟩ := h
  exact List.cons_ne_nil c rest

theorem StartsWord.trimStart_append {word : List Char} (h : StartsWord word) (rest : List Char) :
    trimStart (word ++ rest) = word ++ rest := by
  obtain ⟨c, more, rfl, hc⟩ := h
  rw [List.cons_append, trimStart, List.dropWhile_cons, if_neg (by simp [hc])]

theorem StartsWord.append {word : List Char} (h : StartsWord word) (rest : List Char) :
    StartsWord (word ++ rest) := by
  obtain ⟨c, more, rfl, hc⟩ := h
  exact ⟨c, more ++ rest, rfl, hc⟩

/-- A word at the start of a text is a token there, and the reading goes on where it ends. -/
theorem scan_of_startsWord {kind : TokenKind} {word rest : List Char} {atStart : Bool}
    (hword : StartsWord word)
    (hnext : lx.next? atStart (word ++ rest) = some (kind, word.length)) (offset : Nat) :
    lx.scan offset atStart (word ++ rest) =
      (⟨kind, String.ofList word, offset⟩ :: (lx.scan (offset + byteLength word) false rest).1,
        (lx.scan (offset + byteLength word) false rest).2) := by
  have hgap : (word ++ rest).takeWhile isBlank = [] := by
    obtain ⟨c, more, rfl, hc⟩ := hword
    rw [List.cons_append, List.takeWhile_cons_of_neg (by simp [hc])]
  rw [scan_eq_of_token hword.ne_nil (hword.trimStart_append rest) hnext, hgap]
  rfl

/-- A line is a single token exactly if what it starts with is the whole line. -/
theorem lex_eq_single_iff {line : String} {kind : TokenKind} (hstart : StartsWord line.toList) :
    lx.lex line = .ok [⟨kind, line, 0⟩] ↔
      lx.next? true line.toList = some (kind, line.toList.length) := by
  constructor
  · intro h
    obtain ⟨c, rest, hcons, hc⟩ := hstart
    rw [lex_eq_ok] at h
    rw [hcons] at h ⊢
    rw [scan_of_cons (trimStart_cons_of_not_blank hc)] at h
    split at h
    · cases h
    · cases h
    · rename_i found n hnext
      have hle := length_le_of_next? hnext
      injection h with htokens
      injection htokens with htoken
      injection htoken with hkind htext
      rw [← String.toList_inj, String.toList_ofList, hcons] at htext
      have hlength := congrArg List.length htext
      rw [List.length_take, Nat.min_eq_left hle] at hlength
      rw [hnext, hkind, hlength]
  · intro h
    have hnext : lx.next? true (line.toList ++ []) = some (kind, line.toList.length) := by
      rwa [List.append_nil]
    have hend : ∀ offset, lx.scan offset false [] = ([], none) := fun _ => scan_of_blank rfl
    have hscan := scan_of_startsWord hstart hnext 0
    rw [List.append_nil, hend, String.ofList_toList] at hscan
    exact lex_eq_ok.2 hscan

/-- A word after a space is a token if it is the first one of the text that it starts. -/
theorem scan_word {kind : TokenKind} {word rest : List Char} (hword : StartsWord word)
    (hnext : lx.next? false (word ++ rest) = some (kind, word.length)) (start : Nat) :
    ∃ position after, lx.scan start false (' ' :: (word ++ rest)) =
      (⟨kind, String.ofList word, position⟩ :: (lx.scan after false rest).1,
        (lx.scan after false rest).2) := by
  have hspace : isBlank ' ' = true := by decide
  have htrim : trimStart (' ' :: (word ++ rest)) = word ++ rest := by
    rw [trimStart, List.dropWhile_cons, if_pos hspace]
    exact hword.trimStart_append rest
  exact scan_token hword.ne_nil htrim hnext start

theorem scan_openParen (lx : Lexicon) (start : Nat) (rest : List Char) :
    ∃ position after, lx.scan start true ('(' :: rest) =
      (⟨.openParen, "(", position⟩ :: (lx.scan after false rest).1,
        (lx.scan after false rest).2) := by
  have htrim : trimStart ('(' :: rest) = '(' :: rest := rfl
  have hnext : lx.next? true ('(' :: rest) = some (.openParen, 0 + 1) := rfl
  exact scan_of_next? htrim hnext start

theorem lex_conversionLine (hlx : lx.Closes) {text keyword name : String} {tokens : List Token}
    (htext : lx.lex text = .ok tokens) (hcomment : (trimStart text.toList).head? ≠ some '#')
    (hkeyword : lx.next? false (keyword.toList ++ ' ' :: name.toList) =
      some (.operator, keyword.toList.length))
    (hname : lx.next? false name.toList = some (.unit, name.toList.length))
    (hkeywordStart : StartsWord keyword.toList) (hnameStart : StartsWord name.toList) :
    ∃ similar opening closing operator unit, List.Forall₂ Token.Similar tokens similar ∧
      lx.lex (conversionLine text keyword name) =
        .ok (⟨.openParen, "(", opening⟩ :: (similar ++ [⟨.closeParen, ")", closing⟩,
          ⟨.operator, keyword, operator⟩, ⟨.unit, name, unit⟩])) := by
  have hline : (conversionLine text keyword name).toList =
      '(' :: (text.toList ++ ')' :: ' ' :: (keyword.toList ++ ' ' :: name.toList)) := by
    simp [conversionLine, String.toList_append]
  obtain ⟨opening, start, hopening⟩ := scan_openParen lx 0
    (text.toList ++ ')' :: ' ' :: (keyword.toList ++ ' ' :: name.toList))
  obtain ⟨similar, closing, afterText, hsimilar, hinside⟩ :=
    scan_append_closeParen hlx (lex_eq_ok.1 htext) (fun _ => hcomment) start
      (' ' :: (keyword.toList ++ ' ' :: name.toList))
  obtain ⟨operator, afterKeyword, hoperator⟩ := scan_word hkeywordStart hkeyword afterText
  have hnameAlone : lx.next? false (name.toList ++ []) = some (.unit, name.toList.length) := by
    rwa [List.append_nil]
  obtain ⟨unit, afterName, hunit⟩ := scan_word hnameStart hnameAlone afterKeyword
  -- the parts are put together from the end of the line to its start
  have hend : lx.scan afterName false [] = ([], none) := scan_of_blank rfl
  rw [List.append_nil, hend, String.ofList_toList] at hunit
  rw [hunit, String.ofList_toList] at hoperator
  rw [hoperator] at hinside
  rw [hinside] at hopening
  refine ⟨similar, opening, closing, operator, unit, hsimilar, ?_⟩
  rw [lex_eq_ok, hline, hopening]

end Lexicon

/-! ## The plan -/

theorem Plan.ofTokens_conversion {config : Config} {tokens similar : List Token} {plan : Plan}
    (hplan : Plan.ofTokens config tokens = .ok plan)
    (hsimilar : List.Forall₂ Token.Similar tokens similar)
    {opening closing operator unit : Token} (hopening : opening.kind = .openParen)
    (hclosing : closing.kind = .closeParen) (hoperator : operator.kind = .operator)
    (hunit : unit.kind = .unit) {op : BinaryOperator} {u : MeasureUnit}
    (hop : config.binaryOperators.find? operator.text = some op)
    (hu : config.units.lookup unit.text = some u) :
    Plan.ofTokens config (opening :: (similar ++ [closing, operator, unit])) =
      .ok (plan ++ [.unit u, .operator (.binary op)]) := by
  have hstart : Plan.ofTokens config (opening :: (similar ++ [closing, operator, unit])) =
      ParseState.run config (ParseState.above [] {}) (similar ++ [closing, operator, unit]) := by
    have hstep : ParseState.step config {} opening = .ok (ParseState.above [] {}) := by
      simp only [ParseState.step, hopening]
      rfl
    exact run_cons hstep (by simp [hopening])
  -- after the group the operator finds nothing to complete, and the unit is its right operand
  have hoperatorStep : ParseState.step config
      { reversed := plan.reverse, stack := [], expect := .operator } operator =
      .ok { reversed := plan.reverse, stack := [.operator (.binary op)], expect := .operand } := by
    simp only [ParseState.step, hoperator, ParseState.resolve, hop]
    rfl
  have hunitStep : ParseState.step config
      { reversed := plan.reverse, stack := [.operator (.binary op)], expect := .operand } unit =
      .ok { reversed := .unit u :: plan.reverse, stack := [.operator (.binary op)],
            expect := .operator } := by
    simp only [ParseState.step, hunit, hu]
    rfl
  rw [hstart, ParseState.run_above [] hsimilar hplan hclosing,
    run_cons hoperatorStep (by simp [hoperator]), run_cons hunitStep (by simp [hunit])]
  simp [ParseState.run, ParseState.finish, ParseState.unwind]

/-! ## Running the plan -/

namespace Machine

variable {units : Registry}

/-- What comes after a plan is run on what the plan leaves, unless it fails. -/
theorem steps_append (m : Machine) (plan rest : Plan) :
    steps units m (plan ++ rest) =
      Outcome.andThen (steps units m plan) fun env stack => steps units ⟨env, stack⟩ rest := by
  induction plan generalizing m with
  | nil => rfl
  | cons op plan ih =>
    rw [List.cons_append, steps, steps]
    cases m.step units op with
    | ok next => exact ih next
    | error e => rfl

theorem stack_of_result {stack : List Value} {q : Quantity} (h : result stack = .ok (.number q)) :
    stack = [.number q] := by
  unfold result at h
  split at h <;> cases h
  rfl

theorem run_of_execute {env after : Environment} {plan : Plan} {q : Quantity}
    (h : execute units env plan = (after, .number q)) :
    ∃ left, run units env plan = (left, .ok (.number q)) ∧ after = left.record (.number q) := by
  rcases hrun : run units env plan with ⟨left, outcome⟩
  rw [execute, hrun] at h
  cases outcome with
  | error e => cases h
  | ok v =>
    cases h
    exact ⟨left, rfl, rfl⟩

/--
After a plan that gives a quantity, a unit and a conversion: a plain number takes the unit, and the
operator lacks an operand.
-/
theorem run_conversion {env after : Environment} {plan : Plan} {q : Quantity}
    (h : run units env plan = (after, .ok (.number q))) {op : BinaryOperator}
    (hop : op.operation = .convert) (u : MeasureUnit) :
    run units env (plan ++ [.unit u, .operator (.binary op)]) =
      (after, if q.unit.isUnitless then .error (.missingOperand op.symbol)
        else convert (.number q) (.marker u)) := by
  obtain ⟨hafter, houtcome⟩ := Prod.mk.inj h
  have hsteps : steps units ⟨env, []⟩ plan = (after, .ok [.number q]) := by
    cases hstack : (steps units ⟨env, []⟩ plan).2 with
    | error e =>
      rw [hstack] at houtcome
      cases houtcome
    | ok stack =>
      rw [hstack] at houtcome
      obtain rfl := stack_of_result houtcome
      exact Prod.ext hafter hstack
  have hline : run units env (plan ++ [.unit u, .operator (.binary op)]) =
      ((steps units ⟨after, applyUnit u [.number q]⟩ [.operator (.binary op)]).1,
        (steps units ⟨after, applyUnit u [.number q]⟩ [.operator (.binary op)]).2.bind result) := by
    rw [run, steps_append, hsteps]
    rfl
  rw [hline]
  by_cases hplain : q.unit.isUnitless = true
  · -- the operator finds a single operand
    have hunit : applyUnit u [.number q] = [.number { q with unit := u }] := by
      rw [applyUnit, if_pos hplain]
    rw [hunit, if_pos hplain]
    rfl
  · have hunit : applyUnit u [.number q] = [.marker u, .number q] := by
      rw [applyUnit, if_neg hplain]
    rw [hunit, if_neg hplain, steps_of_step_eq_map step_binary, hop]
    cases hconvert : convert (.number q) (.marker u) with
    | error e => simp [BinaryOperation.apply, hconvert, Outcome.andThen, Except.bind]
    | ok v =>
      have hmade : MadeFrom units [.number q, .marker u] v := madeFrom_of_convert hconvert
      have hresult : result [v] = .ok v := result_of_isResult hmade.isResult
      simp [BinaryOperation.apply, hconvert, Outcome.andThen, steps, Except.bind, hresult]

end Machine

/-! ## The value of the line -/

/-- A plain number converted to a unit takes the unit. -/
theorem convert_of_isUnitless {q : Quantity} {u : MeasureUnit} (hq : q.unit.isUnitless = true)
    (hu : u.isUnitless = false) :
    convert (.number q) (.marker u) = .ok (.number { q with unit := u }) := by
  have hother : q.unit.sameAs u = false := by
    rw [Bool.eq_false_iff]
    intro hsame
    rw [MeasureUnit.isUnitless, ← (MeasureUnit.sameAs_iff.1 hsame).1] at hu
    rw [MeasureUnit.isUnitless, hu] at hq
    cases hq
  have hconvert : q.convertTo u = .ok { q with unit := u } := by
    simp [Quantity.convertTo, hother, hq]
  simp only [convert, Value.expectNumber, bind, Except.bind, hconvert]
  rfl

namespace Standard

theorem isUnitless_of_lookup {name : String} {u : MeasureUnit}
    (h : Config.standard.units.lookup name = some u) : u.isUnitless = false := by
  have hlisted : ∀ u ∈ listedUnits, u.names ≠ [] → u.isUnitless = false := by decide +kernel
  rw [Registry.lookup_eq] at h
  -- the unit of plain numbers has no name under which it could be found
  obtain ⟨hmem, known, hknown, -⟩ := consistent_units.named _ u h
  exact hlisted u (mem_listedUnits (units_standard ▸ hmem)) (List.ne_nil_of_mem hknown)

theorem startsWord_of_keyword {keyword : List Char} (h : keyword ∈ keywords) :
    Lexicon.StartsWord keyword := by
  simp only [keywords, List.mem_cons, List.not_mem_nil, or_false] at h
  rcases h with rfl | rfl
  · exact ⟨'t', ['o'], rfl, by decide⟩
  · exact ⟨'a', ['s'], rfl, by decide⟩

theorem startsWord_of_unitWord {text name : List Char} (h : LowersTo text name)
    (hword : isUnitWord name = true) : Lexicon.StartsWord text := by
  cases h with
  | nil => exact absurd rfl (ne_nil_of_isUnitWord hword)
  | @cons x y rest lowered hhead _ =>
    have hplain : Plain y := plain_of_isUnitWord hword y (List.mem_cons_self ..)
    exact ⟨x, rest, rfl, isBlank_of_lowerChar hhead.2 hplain.blank⟩

theorem find?_of_keyword {keyword : String} (h : keyword ∈ ["to", "as"]) :
    ∃ op, Config.standard.binaryOperators.find? keyword = some op ∧ op.symbol = keyword ∧
      op.operation = .convert := by
  simp only [List.mem_cons, List.not_mem_nil, or_false] at h
  rcases h with rfl | rfl <;> exact ⟨_, rfl, rfl, rfl⟩

end Standard

namespace Calculator

theorem lex_of_comment {lx : Lexicon} {line : String}
    (h : (trimStart line.toList).head? = some '#') :
    ∃ token, token.kind = .comment ∧ lx.lex line = .ok [token] := by
  obtain ⟨rest, htrim⟩ := List.head?_eq_some_iff.1 h
  have hnext : lx.next? true ('#' :: rest) = some (.comment, rest.length + 1) := rfl
  obtain ⟨position, after, hscan⟩ := Lexicon.scan_of_next? htrim hnext 0
  have hend : lx.scan after false [] = ([], none) := Lexicon.scan_of_blank rfl
  rw [List.drop_length, hend] at hscan
  exact ⟨_, rfl, Lexicon.lex_eq_ok.2 hscan⟩

/-- A line that gives a quantity is read, is no comment, and its plan gives the quantity. -/
theorem evaluate_eq_number {c : Calculator} {env after : Environment} {line : String} {q : Quantity}
    (h : c.evaluate env line = (after, .number q)) :
    ∃ tokens plan left, c.lexicon.lex line = .ok tokens ∧
      (trimStart line.toList).head? ≠ some '#' ∧ Plan.ofTokens c.config tokens = .ok plan ∧
      Machine.run c.config.units env plan = (left, .ok (.number q)) ∧
      after = left.record (.number q) := by
  cases htokens : c.lexicon.lex line with
  | error e =>
    simp only [evaluate, compile, planOf, htokens, runCompiled] at h
    cases h
  | ok tokens =>
    cases hplan : Plan.ofTokens c.config tokens with
    | error e =>
      simp only [evaluate, compile, planOf, htokens, hplan, runCompiled] at h
      cases h
    | ok plan =>
      have hvalue : c.evaluate env line = Machine.execute c.config.units env plan := by
        simp only [evaluate, compile, planOf, htokens, hplan, runCompiled]
      rw [hvalue] at h
      obtain ⟨left, hrun, hafter⟩ := Machine.run_of_execute h
      refine ⟨tokens, plan, left, rfl, ?_, hplan, hrun, hafter⟩
      -- the plan of a comment is empty, and so is its value
      intro hcomment
      obtain ⟨token, hkind, hlex⟩ := lex_of_comment hcomment
      rw [htokens] at hlex
      cases hlex
      simp only [Plan.ofTokens, ParseState.run, ParseState.step, hkind] at hplan
      cases hplan
      cases hrun

/--
The value of a line that asks for a unit, in any vocabulary that reads its end as an operator that
converts and a unit.
-/
theorem evaluate_conversionLine_of_next? {c : Calculator} {env after : Environment}
    {text keyword name : String} {q : Quantity} {u : MeasureUnit} {op : BinaryOperator}
    (hlx : c.lexicon.Closes)
    (hkeyword : c.lexicon.next? false (keyword.toList ++ ' ' :: name.toList) =
      some (.operator, keyword.toList.length))
    (hname : c.lexicon.next? false name.toList = some (.unit, name.toList.length))
    (hkeywordStart : Lexicon.StartsWord keyword.toList)
    (hnameStart : Lexicon.StartsWord name.toList)
    (hop : c.config.binaryOperators.find? keyword = some op) (hconvert : op.operation = .convert)
    (hu : c.config.units.lookup name = some u)
    (htext : c.evaluate env text = (after, .number q)) :
    ∃ value, c.evaluate env (conversionLine text keyword name) =
        ({ after with latestFirst := value :: env.latestFirst }, value) ∧
      value = Machine.recorded (if q.unit.isUnitless then .error (.missingOperand op.symbol)
        else convert (.number q) (.marker u)) := by
  obtain ⟨tokens, plan, left, htokens, hcomment, hplan, hrun, rfl⟩ := evaluate_eq_number htext
  obtain ⟨similar, opening, closing, operator, unit, hsimilar, hlex⟩ :=
    Lexicon.lex_conversionLine hlx htokens hcomment hkeyword hname hkeywordStart hnameStart
  have hconversion : Plan.ofTokens c.config (⟨.openParen, "(", opening⟩ :: (similar ++
      [⟨.closeParen, ")", closing⟩, ⟨.operator, keyword, operator⟩, ⟨.unit, name, unit⟩])) =
      .ok (plan ++ [.unit u, .operator (.binary op)]) :=
    Plan.ofTokens_conversion hplan hsimilar rfl rfl rfl rfl hop hu
  -- the text has left the history as it was
  have hhistory : left.latestFirst = env.latestFirst := by
    have hleft : (Machine.run c.config.units env plan).1 = left := by rw [hrun]
    rw [← hleft]
    exact (Machine.frame_of_steps ⟨env, []⟩ plan).1
  refine ⟨_, ?_, rfl⟩
  have hvalue : c.evaluate env (conversionLine text keyword name) =
      Machine.execute c.config.units env (plan ++ [.unit u, .operator (.binary op)]) := by
    simp only [evaluate, compile, planOf, hlex, hconversion, runCompiled]
  rw [hvalue, Machine.execute, Machine.run_conversion hrun hconvert, ← hhistory]
  rfl

/--
For a text that gives a quantity, the line that asks for it in a unit gives what `convert` gives
exactly when the quantity has a unit; a plain number is to take the unit, but the line fails. In
either case the line assigns the same variables as the text.
-/
theorem evaluate_conversionLine (env : Environment) {text keyword name : String} {q : Quantity}
    {u : MeasureUnit} {after : Environment} (hkeyword : keyword ∈ ["to", "as"])
    (hname : Config.standard.units.lookup name = some u)
    (htext : (ofConfig .standard).evaluate env text = (after, .number q)) :
    ∃ value, (ofConfig .standard).evaluate env (conversionLine text keyword name) =
        ({ after with latestFirst := value :: env.latestFirst }, value) ∧
      value = Machine.recorded (if q.unit.isUnitless then .error (.missingOperand keyword)
        else convert (.number q) (.marker u)) ∧
      (value = Machine.recorded (convert (.number q) (.marker u)) ↔ q.unit.isUnitless = false) ∧
      (q.unit.isUnitless = true →
        convert (.number q) (.marker u) = .ok (.number { q with unit := u })) := by
  obtain ⟨op, hop, hsymbol, hoperation⟩ := Standard.find?_of_keyword hkeyword
  obtain ⟨hlowers, hword, hmem⟩ := Standard.unitWord_of_lookup hname
  have hkeywords : keyword.toList ∈ Standard.keywords := by
    simp only [List.mem_cons, List.not_mem_nil, or_false] at hkeyword
    rcases hkeyword with rfl | rfl <;> decide
  obtain ⟨value, hline, hvalue⟩ := evaluate_conversionLine_of_next? (c := ofConfig .standard)
    Standard.closes_lexicon
    (Standard.next?_of_keyword hkeywords hlowers (Standard.head?_of_isUnitWord hword))
    (Standard.next?_of_unitWord hlowers hword hmem) (Standard.startsWord_of_keyword hkeywords)
    (Standard.startsWord_of_unitWord hlowers hword) hop hoperation hname htext
  rw [hsymbol] at hvalue
  have hadopts : q.unit.isUnitless = true →
      convert (.number q) (.marker u) = .ok (.number { q with unit := u }) :=
    fun hplain => convert_of_isUnitless hplain (Standard.isUnitless_of_lookup hname)
  refine ⟨value, hline, hvalue, ?_, hadopts⟩
  cases hplain : q.unit.isUnitless with
  | false => simp [hvalue, hplain]
  | true =>
    rw [hvalue, hadopts hplain, hplain]
    simp [Machine.recorded]

/-- In a fresh environment `(3) to cm` fails. -/
theorem evaluate_conversionLine_three :
    ((ofConfig .standard).evaluate (.fresh default) "(3) to cm").2 =
      .failed "missing operand for 'to'" := by
  have hname : (Config.standard.units.lookup "cm").isSome = true := by decide +kernel
  obtain ⟨u, hu⟩ := Option.isSome_iff_exists.1 hname
  have hlex : (ofConfig .standard).lexicon.lex "3" = .ok [⟨.number, "3", 0⟩] :=
    Lexicon.lex_eq_ok.2 (by decide +kernel)
  have htext : (ofConfig .standard).evaluate (.fresh default) "3" =
      ((Environment.fresh default).record (.plain (.ofInt 3)), .plain (.ofInt 3)) := by
    unfold evaluate compile
    rw [hlex]
    decide +kernel
  obtain ⟨value, hline, hvalue, -⟩ := evaluate_conversionLine (.fresh default)
    (by decide : "to" ∈ ["to", "as"]) hu htext
  have htexts : conversionLine "3" "to" "cm" = "(3) to cm" := by decide
  have hplain : MeasureUnit.unitless.isUnitless = true := by decide
  rw [if_pos hplain] at hvalue
  rw [htexts] at hline
  rw [hline, hvalue]
  rfl

end Calculator

end LineCalc
