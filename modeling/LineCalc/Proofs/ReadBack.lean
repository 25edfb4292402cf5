import LineCalc.Proofs.Conversion
import LineCalc.Proofs.Decimal.Rational
import LineCalc.Proofs.NumberTokens

/-!
# Typing output back in

What a calculator shows of a quantity can be typed in as a line: it is read as a sign, a number and a
unit, whatever the decimal separator is, and gives the quantity as it was shown.

* **`NumberFormat.round_round`**: what is shown is rounded no further.
* **`Standard.next?_symbol`**: a sign is read as an operator.
* **`exists_written`**: the text of a quantity is lexed as tokens that write it.
* **`Calculator.evaluate_formatValue`**: the value of the line that the text makes.
-/

namespace LineCalc

open Text NumberFormat

/-! ## What is shown -/

namespace Decimal

theorem normalize_of_reduced {d : Decimal} (h : d.scale = 0 ∨ d.mantissa % 10 ≠ 0) :
    d.normalize = d := by
  have hdrop : dropZeros d.mantissa d.scale = (d.mantissa, d.scale) := by
    cases hscale : d.scale with
    | zero => rfl
    | succ scale =>
      rcases h with hzero | hlast
      · omega
      · rw [dropZeros, if_neg hlast]
  exact ext_parts (congrArg Prod.fst hdrop) (congrArg Prod.snd hdrop)

theorem abs_of_not_isNegative {d : Decimal} (h : d.isNegative = false) : d.abs = d := by
  rw [abs, h]
  rfl

theorem neg_abs_of_isNegative {d : Decimal} (h : d.isNegative = true) : d.abs.neg = d := by
  rw [abs, if_pos h, neg_neg]

end Decimal

namespace NumberFormat

theorem round_round (f : NumberFormat) (d : Decimal) : f.round (f.round d) = f.round d := by
  have hscale : (f.round d).scale ≤ f.precision :=
    (Decimal.scale_normalize_le _).trans (Decimal.scale_roundTo_le d _ _)
  rw [round, Decimal.roundTo_of_scale_le hscale]
  exact Decimal.normalize_of_reduced (Decimal.reduced_normalize _)

theorem isNegative_round {d : Decimal} (h : d.isNegative = false) (f : NumberFormat) :
    (f.round d).isNegative = false := by
  rw [← Bool.not_eq_true, Decimal.isNegative_iff_toRat, not_lt] at h ⊢
  rw [round, Decimal.toRat_normalize]
  exact Decimal.le_toRat_roundTo ⟨0, by simp⟩ h

/-- What is written after a number: a space and the form of the unit for the number, if it has one. -/
def unitPart (f : NumberFormat) (q : Quantity) : List Char :=
  if q.unit.isUnitless then [] else ' ' :: (q.unit.displayName (f.round q.value)).toList

theorem toList_formatValue {f : NumberFormat} (hgrouping : f.groupingSeparator = none)
    (q : Quantity) : (f.formatValue (.number q)).toList =
      (if (f.round q.value).isNegative then ['-'] else []) ++
        (unsigned f.decimalSeparator (f.round q.value) ++ f.unitPart q) := by
  rw [← List.append_assoc, ← write_eq f hgrouping, formatValue, unitPart]
  split
  · rw [format, String.toList_ofList, List.append_nil]
  · have hspace : " ".toList = [' '] := rfl
    simp [format, String.toList_append, ToString.toString, hspace]

theorem endsNumber_unitPart (f : NumberFormat) (q : Quantity) :
    Lexicon.EndsNumber (f.unitPart q) := by
  unfold unitPart
  split
  · exact .inl rfl
  · exact .inr ⟨_, rfl⟩

theorem formatValue_round (f : NumberFormat) (q : Quantity) :
    f.formatValue (.number { q with value := f.round q.value }) = f.formatValue (.number q) := by
  have hformat : f.format (f.round q.value) = f.format q.value := by
    simp only [format, write, round_round]
  simp only [formatValue, hformat, round_round]

end NumberFormat

theorem MeasureUnit.displayName_mem (u : MeasureUnit) (d : Decimal) :
    u.displayName d ∈ u.displayNames := by
  have hsingular : u.singular ∈ u.displayNames := List.head_mem _
  unfold displayName
  split
  · exact hsingular
  · cases hplural : u.displayNames[1]? with
    | none => exact hsingular
    | some plural => exact List.mem_of_getElem? hplural

/-! ## Tokens -/

namespace Lexicon

theorem startsWord_chars {separator : Char} (hseparator : isSeparator separator = true)
    (l : Literal) : StartsWord (l.chars separator) := by
  obtain ⟨c, more, hcons, hblank, -⟩ := not_structural_chars hseparator l
  exact ⟨c, more, hcons, hblank⟩

theorem scan_chars (lx : Lexicon) (hseparator : isSeparator lx.decimalSeparator = true)
    {cs rest : List Char} (hrest : EndsNumber rest) {l : Literal}
    (htrim : trimStart cs = l.chars lx.decimalSeparator ++ rest) (start : Nat) (atStart : Bool) :
    ∃ position after, lx.scan start atStart cs =
      (⟨.number, String.ofList (l.chars lx.decimalSeparator), position⟩ ::
        (lx.scan after false rest).1, (lx.scan after false rest).2) :=
  scan_token (startsWord_chars hseparator l).ne_nil htrim (next?_chars hseparator hrest atStart l)
    start

/-- Lines are read without regard to the grouping separator. -/
theorem ofConfig_withSeparators {config other : Config} {separator : Char} {grouping : Option Char}
    (h : config.toDraft =
      (other.toDraft.withDecimalSeparator separator).withGroupingSeparator grouping) :
    ofConfig config = (ofConfig other).withSeparator separator := by
  obtain ⟨draft, acceptable⟩ := config
  subst h
  rfl

theorem ofConfig_withDecimalSeparator {config other : Config} {separator : Char}
    (h : config.toDraft = other.toDraft.withDecimalSeparator separator) :
    ofConfig config = (ofConfig other).withSeparator separator :=
  @ofConfig_withSeparators config other separator other.format.groupingSeparator h

end Lexicon

namespace Standard

open Lexicon

/-- A sign is an operator wherever it stands, unless it is the decimal separator. -/
theorem next?_symbol {c separator : Char} (hc : c ∈ symbols) (hseparator : separator ≠ c)
    (atStart : Bool) (rest : List Char) :
    (lexicon.withSeparator separator).next? atStart (c :: rest) = some (.operator, 1) := by
  obtain ⟨hmem, hothers⟩ := operators_symbol c hc
  obtain ⟨hplain, hsign⟩ := plain_of_mem_symbols c hc
  have hlower : ∀ n, lower ((c :: rest).take (n + 1)) = c :: lowerAfter [c] (rest.take n) := by
    intro n
    rw [List.take_succ_cons, lower, lowerAfter, if_neg hplain.sigma, hplain.lower,
      List.singleton_append]
  have hadmits : lexicon.admits (c :: rest) [c] = true := by
    have hself : lower [c] = [c] := by
      simp [lower, lowerAfter, hplain.sigma, hplain.lower]
    simp [admits, hsign, hself]
  have hrejects : ∀ name ∈ lexicon.operators, name ≠ [c] →
      lexicon.admits (c :: rest) name = false := by
    intro name hname hne
    obtain ⟨hhead, hnil⟩ := hothers name hname hne
    rw [Bool.eq_false_iff]
    intro hfound
    simp only [admits, Bool.and_eq_true, beq_iff_eq] at hfound
    obtain ⟨n, hn⟩ := Nat.exists_eq_succ_of_ne_zero (List.length_pos_iff.2 hnil).ne'
    rw [hn, hlower] at hfound
    exact hhead (by rw [← hfound.1.2]; rfl)
  have hlength : (lexicon.withSeparator separator).nameLength?
      (lexicon.withSeparator separator).operators (c :: rest) = some 1 := by
    rw [nameLength?_withSeparator, operators_withSeparator, nameLength?,
      find?_of_unique hmem hadmits hrejects]
    rfl
  have hstart : c ∉ NumberFormat.structural := fun h => hplain.start (List.mem_cons_of_mem _ h)
  exact next?_of_operatorLength atStart hplain.digit hstart
    (numberLength?_cons_of_ne rest hplain.digit hseparator.symm) hlength

theorem unitless_of_isUnitless : ∀ u ∈ listedUnits, u.isUnitless = true → u = .unitless := by
  decide +kernel

theorem displayNames_ne_empty : ∀ u ∈ listedUnits, u.isUnitless = false → "" ∉ u.displayNames := by
  decide +kernel

/-- The form that is shown of a standard unit stands for it. -/
theorem lookup_displayName {u : MeasureUnit} (hu : u ∈ listedUnits) (hunit : u.isUnitless = false)
    (d : Decimal) : Config.standard.units.lookup (u.displayName d) = some u := by
  have hshown : u.displayName d ∈ u.displayNames := u.displayName_mem d
  have hname : u.displayName d ∈ u.names := by
    have hne : u.displayName d ≠ "" := fun hempty =>
      displayNames_ne_empty u hu hunit (hempty ▸ hshown)
    simp [MeasureUnit.names, hshown, hne]
  rw [units_standard]
  exact registered_units.2 u hu _ hname

end Standard

/-! ## The expression that the text of a quantity writes -/

namespace Quantity

/-- The unit as it is written: none for a plain number. -/
def writtenUnit (q : Quantity) : Option MeasureUnit :=
  if q.unit.isUnitless then none else some q.unit

/-- A number with its sign before it, in a unit unless it has none. -/
def expression (minus : UnaryOperator) (q : Quantity) : Expression :=
  if q.value.isNegative then .prefixed minus (.number q.value.abs q.writtenUnit)
  else .number q.value.abs q.writtenUnit

theorem evaluate_expression {minus : UnaryOperator} (hminus : minus.operation = .negate)
    {q : Quantity} (hunit : q.unit.isUnitless = true → q.unit = .unitless) (units : Registry)
    (env : Environment) : (q.expression minus).evaluate units env = (env, .ok (.number q)) := by
  have hnumber : ∀ d, (Expression.number d q.writtenUnit).evaluate units env =
      (env, .ok (.number ⟨d, q.unit⟩)) := by
    intro d
    unfold writtenUnit
    split
    · rename_i hplain
      rw [hunit hplain]
      rfl
    · rfl
  unfold expression
  split
  · rename_i hnegative
    have hvalue : (Expression.prefixed minus (.number q.value.abs q.writtenUnit)).evaluate
        units env = (env, .ok (.number ⟨q.value.abs.neg, q.unit⟩)) := by
      rw [Expression.evaluate, hnumber, Outcome.andThen, hminus]
      rfl
    rw [hvalue, Decimal.neg_abs_of_isNegative hnegative]
  · rename_i hpositive
    rw [hnumber, Decimal.abs_of_not_isNegative (by simpa using hpositive)]

end Quantity

/-- The plan of an operand is the whole plan of a line that it makes up. -/
theorem ofTokens_of_written {config : Config} {e : Expression} {tokens : List Token}
    {openOps : List Operator} (h : Written config e tokens openOps) :
    Plan.ofTokens config tokens = .ok e.postorder := by
  obtain ⟨done, hpostorder, hrun⟩ := readsOperand_of_written h
  have hread := hrun {} [] rfl (by simp) (by simp [NoAssignment])
  rw [List.append_nil] at hread
  rw [Plan.ofTokens, hread]
  simp only [ParseState.run, ParseState.finish, ParseState.advance]
  rw [unwind_append (completes_operators _)]
  simp [ParseState.unwind, hpostorder]

namespace Machine

/-- What a tree gives is what its plan gives as a line, unless it cannot be a result. -/
theorem execute_of_evaluate {units : Registry} {env after : Environment} {e : Expression}
    {v : Value} (hv : v.isResult = true) (h : e.evaluate units env = (after, .ok v)) :
    execute units env e.postorder = (after.record v, v) := by
  have hsteps : steps units ⟨env, []⟩ (e.postorder ++ []) = (after, .ok [v]) := by
    rw [steps_postorder, h]
    rfl
  rw [List.append_nil] at hsteps
  have hrun : run units env e.postorder = (after, .ok v) := by
    rw [run, hsteps]
    exact congrArg (Prod.mk after) (result_of_isResult hv)
  rw [execute, hrun]
  rfl

theorem execute_postorder {units : Registry} {env after : Environment} {e : Expression}
    {q : Quantity} (h : e.evaluate units env = (after, .ok (.number q))) :
    execute units env e.postorder = (after.record (.number q), .number q) :=
  execute_of_evaluate rfl h

end Machine

/-! ## The standard vocabulary with any separator -/

namespace Standard

open Lexicon

/-- The sign before a number. -/
def minus : UnaryOperator :=
  { symbol := "-", precedence := unaryPrecedence, isConversion := false, operation := .negate }

theorem find?_minus : draft.unaryOperators.find? "-" = some minus := rfl

section

variable {separator : Char} {config : Config}

theorem format_of_build (hconfig : config.toDraft = draft.withDecimalSeparator separator) :
    config.format = { decimalSeparator := separator } := by
  have hformat : config.format = { draft.format with decimalSeparator := separator } := by
    rw [hconfig]
    rfl
  rw [hformat, format_draft]

theorem isSeparator_of_build (hconfig : config.toDraft = draft.withDecimalSeparator separator) :
    isSeparator separator = true := by
  have haccepted := config.acceptable.1
  rwa [format_of_build hconfig] at haccepted

/-- Apart from the separator the vocabulary is the standard one. -/
theorem tables_of_build (hconfig : config.toDraft = draft.withDecimalSeparator separator) :
    config.units = units ∧ config.unaryOperators = draft.unaryOperators := by
  have htables : ∀ d : Draft, (d.withDecimalSeparator separator).units = d.units ∧
      (d.withDecimalSeparator separator).unaryOperators = d.unaryOperators := fun _ => ⟨rfl, rfl⟩
  rw [hconfig, (htables draft).1, (htables draft).2]
  exact ⟨units_draft, rfl⟩

theorem lexicon_of_build (hconfig : config.toDraft = draft.withDecimalSeparator separator) :
    ofConfig config = lexicon.withSeparator separator := by
  have hstandard : config.toDraft = Config.standard.toDraft.withDecimalSeparator separator := hconfig
  exact ofConfig_withDecimalSeparator hstandard

/-- The number and the unit of a text are tokens that write them, wherever they stand in the line. -/
theorem exists_written_number (hconfig : config.toDraft = draft.withDecimalSeparator separator)
    {q : Quantity} (hunit : q.unit ∈ listedUnits) (start : Nat) (atStart : Bool) :
    ∃ tokens, (lexicon.withSeparator separator).scan start atStart
        (unsigned separator (config.format.round q.value) ++ config.format.unitPart q) =
      (tokens, none) ∧
      Written config (.number (config.format.round q.value).abs q.writtenUnit) tokens [] := by
  have hseparator := isSeparator_of_build hconfig
  have hread : config.format.read
      (String.ofList (unsigned separator (config.format.round q.value))) =
      .ok (config.format.round q.value).abs := by
    have hformat : config.format.decimalSeparator = separator := by rw [format_of_build hconfig]
    have hread := read_unsigned (f := config.format) (hformat.symm ▸ hseparator)
      (config.format.round q.value)
    rwa [hformat] at hread
  obtain ⟨position, after, hscan⟩ := scan_chars (lexicon.withSeparator separator) hseparator
    (endsNumber_unitPart config.format q)
    ((startsWord_chars hseparator (.ofDecimal (config.format.round q.value))).trimStart_append _)
    start atStart
  have hlexed : (lexicon.withSeparator separator).decimalSeparator = separator := rfl
  rw [hlexed, ← unsigned_eq_chars] at hscan
  rw [hscan]
  unfold unitPart Quantity.writtenUnit
  split
  · have hend : (lexicon.withSeparator separator).scan after false [] = ([], none) :=
      scan_of_blank rfl
    rw [hend]
    exact ⟨_, rfl, .number rfl hread⟩
  · rename_i hplain
    have hlookup :=
      lookup_displayName hunit (Bool.eq_false_iff.2 hplain) (config.format.round q.value)
    obtain ⟨hlowers, hword, hmem⟩ := unitWord_of_lookup hlookup
    have hstart := startsWord_of_unitWord hlowers hword
    generalize q.unit.displayName (config.format.round q.value) = name at *
    have halone : (lexicon.withSeparator separator).next? false (name.toList ++ []) =
        some (.unit, name.toList.length) := by
      rw [List.append_nil]
      exact next?_withSeparator_of_unitWord separator hlowers hword hmem
    obtain ⟨unitPosition, afterUnit, hunitScan⟩ := scan_word hstart halone after
    have hend : (lexicon.withSeparator separator).scan afterUnit false [] = ([], none) :=
      scan_of_blank rfl
    rw [List.append_nil, hend, String.ofList_toList] at hunitScan
    have hunits : config.units.lookup name = some q.unit := by
      rw [(tables_of_build hconfig).1, ← units_standard]
      exact hlookup
    rw [hunitScan]
    exact ⟨_, rfl, .quantity rfl hread rfl hunits⟩

/-- The text of a quantity is read as tokens that write it. -/
theorem exists_written (hconfig : config.toDraft = draft.withDecimalSeparator separator)
    {q : Quantity} (hunit : q.unit ∈ listedUnits)
    (hsign : separator = '-' → q.value.isNegative = false) :
    ∃ tokens openOps,
      (lexicon.withSeparator separator).lex (config.format.formatValue (.number q)) = .ok tokens ∧
      Written config
        (Quantity.expression minus { q with value := config.format.round q.value }) tokens
        openOps := by
  have hformat := format_of_build hconfig
  have hgrouping : config.format.groupingSeparator = none := by rw [hformat]
  have hseparator : config.format.decimalSeparator = separator := by rw [hformat]
  simp only [lex_eq_ok, toList_formatValue hgrouping, hseparator, Quantity.expression]
  cases hnegative : (config.format.round q.value).isNegative with
  | false =>
    obtain ⟨tokens, hscan, hwritten⟩ := exists_written_number hconfig hunit 0 true
    exact ⟨tokens, [], hscan, hwritten⟩
  | true =>
    have hne : separator ≠ '-' := by
      intro hminus
      rw [isNegative_round (hsign hminus)] at hnegative
      cases hnegative
    -- the sign is taken away first, and the rest is not at the start of the line
    have hnext := next?_symbol (by decide) hne true
      (unsigned separator (config.format.round q.value) ++ config.format.unitPart q)
    have htrim : trimStart ('-' :: (unsigned separator (config.format.round q.value) ++
        config.format.unitPart q)) =
        '-' :: (unsigned separator (config.format.round q.value) ++ config.format.unitPart q) := rfl
    obtain ⟨position, after, hsignScan⟩ := scan_of_next? htrim hnext 0
    obtain ⟨tokens, hscan, hwritten⟩ := exists_written_number hconfig hunit after false
    rw [List.drop_zero, hscan] at hsignScan
    have hfind : config.unaryOperators.find? "-" = some minus := by
      rw [(tables_of_build hconfig).2]
      exact find?_minus
    exact ⟨_, [.unary minus], hsignScan, .prefixed rfl hfind hwritten (by simp [FitsRightOf])⟩

end

end Standard

/-! ## The value of the line -/

namespace Calculator

theorem snd_evaluateLine (c : Calculator) (env : Environment) (line : String) :
    (c.evaluateLine env line).2 =
      c.config.format.formatValue (c.shown (c.compile line) (c.evaluate env line).2) := rfl

/-- The plan of a line that writes a tree. -/
theorem compile_of_written {c : Calculator} {line : String} {tokens : List Token} {e : Expression}
    {openOps : List Operator} (hlex : c.lexicon.lex line = .ok tokens)
    (hwritten : Written c.config e tokens openOps) : c.compile line = .ok e.postorder :=
  compile_eq_ok.2 ⟨tokens, hlex, ofTokens_of_written hwritten⟩

/-- The value of a line with the plan of a tree. -/
theorem evaluate_of_postorder {c : Calculator} {line : String} {e : Expression}
    (hcompile : c.compile line = .ok e.postorder) {env after : Environment} {v : Value}
    (hv : v.isResult = true) (h : e.evaluate c.config.units env = (after, .ok v)) :
    c.evaluate env line = (after.record v, v) := by
  rw [evaluate, hcompile]
  exact Machine.execute_of_evaluate hv h

/-- Without an operator nothing is chosen for display. -/
theorem selects_number (d : Decimal) (unit : Option MeasureUnit) :
    selects (Expression.number d unit).postorder = false := by
  cases unit <;> rfl

/--
The text of a quantity in a registered unit, typed in with the standard vocabulary and any decimal
separator, gives the quantity as it was shown; without a sign, it is shown again as it stands. A
number with a sign cannot be read where the sign is the separator.
-/
theorem evaluate_formatValue {separator : Char} {config : Config}
    (hbuild : (Standard.draft.withDecimalSeparator separator).build = .ok config) {u : MeasureUnit}
    (hunit : u ∈ config.units.units) {v : Decimal}
    (hsign : separator = '-' → v.isNegative = false) (env : Environment) :
    ((ofConfig config).evaluate env (config.format.formatValue (.number ⟨v, u⟩))).2 =
        .number ⟨config.format.round v, u⟩ ∧
      (v.isNegative = false →
        ((ofConfig config).evaluateLine env (config.format.formatValue (.number ⟨v, u⟩))).2 =
          config.format.formatValue (.number ⟨v, u⟩)) := by
  have hconfig : config.toDraft = Standard.draft.withDecimalSeparator separator :=
    Draft.build_eq_ok_iff.1 hbuild
  have hlisted : u ∈ Standard.listedUnits := by
    rw [(Standard.tables_of_build hconfig).1] at hunit
    exact Standard.mem_listedUnits hunit
  obtain ⟨tokens, openOps, hlex, hwritten⟩ :=
    Standard.exists_written (q := ⟨v, u⟩) hconfig hlisted hsign
  rw [← Standard.lexicon_of_build hconfig] at hlex
  have hcompile : (ofConfig config).compile (config.format.formatValue (.number ⟨v, u⟩)) =
      .ok (Quantity.expression Standard.minus ⟨config.format.round v, u⟩).postorder := by
    have hlexer : (ofConfig config).lexicon = Lexicon.ofConfig config := rfl
    have hvocabulary : (ofConfig config).config = config := rfl
    simp only [compile, planOf, hlexer, hvocabulary, hlex, ofTokens_of_written hwritten]
  have hvalue : ((ofConfig config).evaluate env (config.format.formatValue (.number ⟨v, u⟩))).2 =
      .number ⟨config.format.round v, u⟩ := by
    rw [evaluate, hcompile, runCompiled]
    have hminus : Standard.minus.operation = .negate := rfl
    have hexpression := Quantity.evaluate_expression hminus (q := ⟨config.format.round v, u⟩)
      (Standard.unitless_of_isUnitless u hlisted) config.units env
    exact congrArg Prod.snd (Machine.execute_postorder hexpression)
  refine ⟨hvalue, fun hpositive => ?_⟩
  have hnumber : Quantity.expression Standard.minus ⟨config.format.round v, u⟩ =
      .number (config.format.round v).abs
        (Quantity.writtenUnit ⟨config.format.round v, u⟩) := by
    rw [Quantity.expression, isNegative_round hpositive]
    rfl
  have hshown : (ofConfig config).shown
      ((ofConfig config).compile (config.format.formatValue (.number ⟨v, u⟩)))
      (.number ⟨config.format.round v, u⟩) = .number ⟨config.format.round v, u⟩ := by
    rw [hcompile, hnumber]
    simp only [shown, selectUnit, selects_number, Bool.not_false, Bool.or_true, if_true]
  rw [snd_evaluateLine, hvalue, hshown]
  exact formatValue_round config.format ⟨v, u⟩

/-- The standard vocabulary with a comma as decimal separator. -/
def commas : Config where
  toDraft := Standard.draft.withDecimalSeparator ','
  acceptable := by
    have hformat : (Standard.draft.withDecimalSeparator ',').format =
        { Standard.draft.format with decimalSeparator := ',' } := rfl
    rw [hformat, Standard.format_draft]
    decide

/-- The last of the durations, with the forms `week` and `weeks`. -/
def week : MeasureUnit := Standard.durations.getLast (List.cons_ne_nil _ _)

/-- Two and a half weeks and some more are shown with four places and read back so. -/
theorem evaluate_formatValue_weeks :
    (Standard.draft.withDecimalSeparator ',').build = .ok commas ∧
      week ∈ commas.units.units ∧
      commas.format.formatValue (.number ⟨.ofScaled 256789 5, week⟩) = "2,5679 weeks" ∧
      ((ofConfig commas).evaluate (.fresh default) "2,5679 weeks").2 =
        .number ⟨.ofScaled 25679 4, week⟩ ∧
      ((ofConfig commas).evaluateLine (.fresh default) "2,5679 weeks").2 = "2,5679 weeks" := by
  have hdraft : commas.toDraft = Standard.draft.withDecimalSeparator ',' := rfl
  have hbuild : (Standard.draft.withDecimalSeparator ',').build = .ok commas :=
    Draft.build_eq_ok_iff.2 hdraft
  have hlisted : week ∈ Standard.listedUnits := by decide +kernel
  have hname : "weeks" ∈ week.names := by decide +kernel
  have hlookup : Config.standard.units.lookup "weeks" = some week := by
    rw [Standard.units_standard]
    exact Standard.registered_units.2 _ hlisted _ hname
  have hunit : week ∈ commas.units.units := by
    rw [(Standard.tables_of_build hdraft).1, ← Standard.units_standard]
    exact Standard.consistent_units.lookup_mem "weeks" _ hlookup
  have htext : commas.format.formatValue (.number ⟨.ofScaled 256789 5, week⟩) = "2,5679 weeks" := by
    decide +kernel
  have hround : commas.format.round (.ofScaled 256789 5) = .ofScaled 25679 4 := by decide +kernel
  have hsign : ',' = '-' → (Decimal.ofScaled 256789 5).isNegative = false := fun _ => by decide
  have hvalue := (evaluate_formatValue hbuild hunit hsign (.fresh default)).1
  have hline := (evaluate_formatValue hbuild hunit hsign (.fresh default)).2
  rw [htext] at hvalue hline
  rw [hround] at hvalue
  exact ⟨hbuild, hunit, htext, hvalue, hline (by decide)⟩

end Calculator

end LineCalc
