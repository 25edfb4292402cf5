import LineCalc.CommandLine
import LineCalc.Proofs.Document
import LineCalc.Proofs.Grouping
import LineCalc.Proofs.ReadBack
import LineCalc.Proofs.Selection

/-!
# What the program prints

The program prints one line for each line of its document. Numbers are made of digits, a sign and
the two separators, dates and times of digits and marks, and the forms of the standard units are
words and signs, so no result has a line break in it unless the line break is what separates groups
of digits.

* **`NumberFormat.mem_write`**: the characters of a number.
* **`Registry.unit_of_select`**: the units that a result is shown in.
* **`Calculator.newline_not_mem_evaluateLine`**: a result stays on its line.
* **`CommandLine.outcome_lines`**: what is printed is the results, one on each line.
-/

namespace LineCalc

open Text

/-! ## The characters of a result -/

theorem Figure.ne_newline {c : Char} (h : Figure c) : c ≠ '\n' := by
  rintro rfl
  exact absurd h.blank (by decide)

namespace NumberFormat

variable {f : NumberFormat} {c : Char}

/-- A number is made of digits, a sign and the separators. -/
theorem mem_write {d : Decimal} (h : c ∈ f.write d) :
    Figure c ∨ c = '-' ∨ f.groupingSeparator = some c ∨ c = f.decimalSeparator := by
  unfold write at h
  rcases List.mem_append.1 h with h | hfraction
  · rcases List.mem_append.1 h with hsign | hinteger
    · split at hsign
      · exact .inr (.inl (List.mem_singleton.1 hsign))
      · cases hsign
    · split at hinteger
      · rename_i separator hgrouping
        rcases mem_groupDigits hinteger with rfl | hdigit
        · exact .inr (.inr (.inl hgrouping))
        · exact .inl (figure_of_isDigit (Decimal.isDigit_of_mem_integerDigits hdigit))
      · exact .inl (figure_of_isDigit (Decimal.isDigit_of_mem_integerDigits hinteger))
  · split at hfraction
    · cases hfraction
    · rcases List.mem_cons.1 hfraction with rfl | hdigit
      · exact .inr (.inr (.inr rfl))
      · exact .inl (figure_of_isDigit (Decimal.isDigit_of_mem_fractionDigits hdigit))

theorem newline_not_mem_write (hdecimal : isSeparator f.decimalSeparator = true)
    (hgrouping : f.groupingSeparator ≠ some '\n') (d : Decimal) : '\n' ∉ f.write d := by
  intro h
  rcases mem_write h with hfigure | hsign | hgroups | hpoint
  · exact hfigure.ne_newline rfl
  · exact absurd hsign (by decide)
  · exact hgrouping hgroups
  · exact absurd (hpoint ▸ hdecimal) (by decide)

/-- A line break that separates groups of digits breaks the line. -/
example : ({ groupingSeparator := some '\n' } : NumberFormat).format (.ofInt 1000) = "1\n000" := by
  decide

end NumberFormat

theorem Date.mem_toText {d : Date} {c : Char} (h : c ∈ d.toText) :
    Figure c ∨ c = '-' ∨ c = '+' := by
  have hyear : ∀ year, c ∈ yearText year → Figure c ∨ c = '-' ∨ c = '+' := by
    intro year h
    unfold yearText at h
    split at h
    · rcases List.mem_cons.1 h with hsign | hdigit
      · exact .inr (.inl hsign)
      · exact .inl (Decimal.figure_of_mem_paddedDigits hdigit)
    split at h
    · rcases List.mem_cons.1 h with hsign | hdigit
      · exact .inr (.inr hsign)
      · exact .inl (Decimal.figure_of_mem_paddedDigits hdigit)
    · exact .inl (Decimal.figure_of_mem_paddedDigits h)
  simp only [toText, List.mem_append, List.mem_cons] at h
  rcases h with (h | h | h) | h | h
  · exact hyear _ h
  · exact .inr (.inl h)
  · exact .inl (Decimal.figure_of_mem_paddedDigits h)
  · exact .inr (.inl h)
  · exact .inl (Decimal.figure_of_mem_paddedDigits h)

theorem TimeOfDay.mem_toText {t : TimeOfDay} {c : Char} (h : c ∈ t.toText) :
    Figure c ∨ c = ':' := by
  simp only [toText, List.mem_append, List.mem_cons] at h
  rcases h with (h | h | h) | h | h
  · exact .inl (Decimal.figure_of_mem_paddedDigits h)
  · exact .inr h
  · exact .inl (Decimal.figure_of_mem_paddedDigits h)
  · exact .inr h
  · exact .inl (Decimal.figure_of_mem_paddedDigits h)

theorem Date.newline_not_mem_toText (d : Date) : '\n' ∉ d.toText := by
  intro h
  rcases mem_toText h with hfigure | hmark | hmark
  · exact hfigure.ne_newline rfl
  all_goals exact absurd hmark (by decide)

theorem TimeOfDay.newline_not_mem_toText (t : TimeOfDay) : '\n' ∉ t.toText := by
  intro h
  rcases mem_toText h with hfigure | hmark
  · exact hfigure.ne_newline rfl
  · exact absurd hmark (by decide)

/-- The text of a value has no line break if neither the format nor the unit brings one. -/
theorem NumberFormat.newline_not_mem_formatValue {f : NumberFormat}
    (hdecimal : isSeparator f.decimalSeparator = true)
    (hgrouping : f.groupingSeparator ≠ some '\n') {v : Value}
    (hunit : ∀ u, v.unit? = some u → ∀ form ∈ u.displayNames, '\n' ∉ form.toList) :
    '\n' ∉ (f.formatValue v).toList := by
  cases v with
  | number q =>
    have hnumber := newline_not_mem_write hdecimal hgrouping q.value
    have hform := hunit q.unit rfl _ (q.unit.displayName_mem (f.round q.value))
    simp only [formatValue]
    split <;> simp [format, ToString.toString, hnumber, hform]
  | moment instant hasTime =>
    have hdate := instant.date.newline_not_mem_toText
    have htime := instant.time.newline_not_mem_toText
    simp only [formatValue]
    split <;> simp [ToString.toString, hdate, htime]
  | marker | empty | failed => simp [formatValue]

/-! ## The units of a result -/

/-- A unit that is chosen for display is that of the quantity or stands in a group. -/
theorem Registry.unit_of_select {r : Registry} {q best : Quantity} {precision : Nat}
    (h : r.select q precision = .ok best) :
    best.unit = q.unit ∨ ∃ group ∈ r.groups, best.unit ∈ group := by
  unfold select at h
  split at h
  · rename_i group hgroup
    obtain ⟨u, hu, hconvert⟩ := Quantity.convertTo_of_selectFrom h
    rcases Quantity.eq_or_unit_of_convertTo hconvert with hsame | htarget
    · exact .inl (congrArg Quantity.unit hsame)
    · exact .inr ⟨group, List.mem_of_find?_eq_some hgroup, htarget ▸ hu⟩
  · cases h
    exact .inl rfl

namespace Standard

theorem newline_not_mem_displayNames :
    ∀ u ∈ listedUnits, ∀ form ∈ u.displayNames, '\n' ∉ form.toList := by decide +kernel

theorem listed_of_mem_displayGroups : ∀ group ∈ displayGroups, ∀ u ∈ group, u ∈ listedUnits := by
  decide +kernel

end Standard

namespace Calculator

variable {c : Calculator}

/-- What is shown is in a standard unit if the value is. -/
theorem listed_of_shown (hunits : c.config.units = Standard.units)
    {compiled : Except CompileError Plan} {v : Value}
    (hv : ∀ u, v.unit? = some u → u ∈ Standard.listedUnits) :
    ∀ u, (c.shown compiled v).unit? = some u → u ∈ Standard.listedUnits := by
  cases compiled with
  | error e => exact hv
  | ok plan =>
    cases v with
    | number q =>
      simp only [shown, selectUnit]
      split
      · exact hv
      · split
        · rename_i best hbest
          rw [hunits] at hbest
          rintro u ⟨⟩
          rcases Registry.unit_of_select hbest with hsame | ⟨group, hgroup, hmem⟩
          · exact hsame ▸ hv q.unit rfl
          · rw [Standard.registered_units.1] at hgroup
            exact Standard.listed_of_mem_displayGroups group hgroup _ hmem
        · exact hv
    | moment | marker | empty | failed => exact hv

/-- With the standard units, a result has no line break in it unless groups are separated by one. -/
theorem newline_not_mem_evaluateLine (hconfig : c.config.Built)
    (hunits : c.config.units = Standard.units)
    (hgrouping : c.config.format.groupingSeparator ≠ some '\n') {env : Environment}
    (henv : env.Sound c.config.units) (line : String) :
    '\n' ∉ (c.evaluateLine env line).2.toList := by
  have hvalue : (c.evaluate env line).2.Sound c.config.units := by
    refine ((sound_of_evaluate hconfig henv line).lines _ ?_).2
    simp [lines_evaluate]
  have hlisted : ∀ u, (c.evaluate env line).2.unit? = some u → u ∈ Standard.listedUnits :=
    fun u hu => Standard.mem_listedUnits (hunits ▸ hvalue.unit_mem u hu)
  rw [snd_evaluateLine]
  refine NumberFormat.newline_not_mem_formatValue c.config.acceptable.1 hgrouping fun u hu => ?_
  exact Standard.newline_not_mem_displayNames u (listed_of_shown hunits hlisted u hu)

theorem newline_not_mem_evaluateLines (hconfig : c.config.Built)
    (hunits : c.config.units = Standard.units)
    (hgrouping : c.config.format.groupingSeparator ≠ some '\n') {env : Environment}
    (henv : env.Sound c.config.units) (lines : List String) :
    ∀ result ∈ (c.evaluateLines env lines).2, '\n' ∉ result.toList := by
  induction lines generalizing env with
  | nil => exact fun _ h => absurd h List.not_mem_nil
  | cons line rest ih =>
    rw [evaluateLines_cons]
    refine List.forall_mem_cons.2 ⟨?_, ih (sound_of_evaluate hconfig henv line)⟩
    exact newline_not_mem_evaluateLine hconfig hunits hgrouping henv line

end Calculator

/-! ## The program -/

/-- Lines that are printed one after the other are what stands before the newlines. -/
theorem splitOn_join_lines {results : List String} (h : ∀ result ∈ results, '\n' ∉ result.toList) :
    (String.join (results.map (· ++ "\n"))).toList.splitOn '\n' =
      results.map String.toList ++ [[]] := by
  induction results with
  | nil => rfl
  | cons result rest ih =>
    obtain ⟨hresult, hrest⟩ := List.forall_mem_cons.1 h
    have hnewline : "\n".toList = ['\n'] := rfl
    rw [List.map_cons, String.join_cons, String.toList_append, String.toList_append, hnewline,
      List.append_assoc, List.singleton_append, List.splitOn_append_cons_self_of_not_mem hresult,
      ih hrest]
    rfl

namespace CommandLine

theorem zipWith_printed {o : Options} (hside : o.sideBySide = false) {lines results : List String}
    (hlength : results.length = lines.length) :
    lines.zipWith o.printed results = results.map (· ++ "\n") := by
  induction results generalizing lines with
  | nil => simp
  | cons result results ih =>
    cases lines with
    | nil => cases hlength
    | cons line lines =>
      have hprinted : o.printed line result = result ++ "\n" := by
        simp [Options.printed, hside, ToString.toString]
      rw [List.zipWith_cons_cons, ih (Nat.succ.inj hlength), hprinted, List.map_cons]

/-- The standard vocabulary with the separators that are asked for. -/
theorem Options.draft_of_config {o : Options} {config : Config} (h : o.config = .ok config) :
    config.Built ∧ config.units = Standard.units ∧
      config.format.groupingSeparator = o.groupingSeparator := by
  have hparts : ∀ (d : Draft) (separator : Char) (grouping : Option Char),
      ((d.withDecimalSeparator separator).withGroupingSeparator grouping).units = d.units ∧
        ((d.withDecimalSeparator separator).withGroupingSeparator grouping).format.groupingSeparator =
          grouping := fun _ _ _ => ⟨rfl, rfl⟩
  rw [Draft.build_eq_ok_iff.1 h, (hparts ..).1, (hparts ..).2]
  exact ⟨(Standard.built_draft.decimalSeparator _).groupingSeparator _, Standard.units_draft, rfl⟩

/-- The program succeeds where there is a document and the separators are accepted. -/
theorem run_eq_of_exitCode {o : Options} {now : Instant} {document : Except ReadFailure String}
    (h : (run o now document).exitCode = 0) : ∃ text config, document = .ok text ∧
      o.config = .ok config ∧ (run o now document).stdout =
        String.join ((Text.lines text).zipWith o.printed
          ((Calculator.ofConfig config).evaluateDocument (.fresh now) text).2) := by
  unfold run at h ⊢
  cases document with
  | error e => cases h
  | ok text =>
    cases hconfig : o.config with
    | error e =>
      rw [hconfig] at h
      cases h
    | ok config => exact ⟨text, config, rfl, rfl, rfl⟩

/--
Where a document is to be evaluated without its lines beside the results, and the program succeeds,
it prints the results of the lines of the document, each on a line of its own. The result of a line
is the one that it has after those before it. Groups of digits may be separated by any character but
a line break.
-/
theorem outcome_lines {args : List String} {o : Options} (hargs : parse args = .ok (.evaluate o))
    (hside : o.sideBySide = false) (hgrouping : o.groupingSeparator ≠ some '\n') {working : Place}
    {now : Instant} {input : Except ReadFailure String}
    (hexit : (outcome working now input args).exitCode = 0) :
    ∃ (text : String) (config : Config) (lines results : List String),
      o.document working input = .ok text ∧ o.config = .ok config ∧
      lines.map String.toList = Text.betweenNewlines text.toList ∧
      (outcome working now input args).stdout.toList.splitOn '\n' =
        results.map String.toList ++ [[]] ∧
      results.length = lines.length ∧
      ∀ (i : Nat) (line : String), lines[i]? = some line → results[i]? =
        some ((Calculator.ofConfig config).evaluateLine
          ((Calculator.ofConfig config).evaluateLines (.fresh now) (lines.take i)).1 line).2 := by
  have houtcome : outcome working now input args = run o now (o.document working input) := by
    unfold outcome respond
    rw [hargs]
    rfl
  rw [houtcome] at hexit ⊢
  obtain ⟨text, config, hdocument, hconfig, hstdout⟩ := run_eq_of_exitCode hexit
  obtain ⟨hbuilt, hunits, hformat⟩ := Options.draft_of_config hconfig
  obtain ⟨values, -, -, hlength, hresults⟩ :=
    (Calculator.ofConfig config).evaluateLines_getElem? (.fresh now) (Text.lines text)
  have hnewline := Calculator.newline_not_mem_evaluateLines (c := .ofConfig config) hbuilt hunits
    (hformat ▸ hgrouping) (.fresh now) (Text.lines text)
  refine ⟨text, config, Text.lines text, _, hdocument, hconfig, Text.toList_lines text, ?_, hlength,
    fun i line hline => (hresults i line hline).2⟩
  rw [hstdout, Calculator.evaluateDocument, zipWith_printed hside hlength,
    splitOn_join_lines hnewline]

/-- Points between groups of digits, an empty line and a line that ends with a carriage return. -/
theorem outcome_lines_grouped :
    (outcome ⟨[], .directory []⟩ default (.ok "1234,5\r\n\n3 / 0")
        ["--decimal-separator", ",", "--grouping-separator=."]).exitCode = 0 ∧
      ∃ results : List String,
        (outcome ⟨[], .directory []⟩ default (.ok "1234,5\r\n\n3 / 0")
            ["--decimal-separator", ",", "--grouping-separator=."]).stdout.toList.splitOn '\n' =
          results.map String.toList ++ [[]] ∧
        results.length = 3 := by
  have hargs : parse ["--decimal-separator", ",", "--grouping-separator=."] =
      .ok (.evaluate { decimalSeparator := some ',', groupingSeparator := some '.' }) := by
    decide +kernel
  have hexit : (outcome ⟨[], .directory []⟩ default (.ok "1234,5\r\n\n3 / 0")
      ["--decimal-separator", ",", "--grouping-separator=."]).exitCode = 0 := by
    decide +kernel
  obtain ⟨text, config, lines, results, hdocument, -, hlines, hstdout, hlength, -⟩ :=
    outcome_lines hargs rfl (by decide) hexit
  cases hdocument
  refine ⟨hexit, results, hstdout, ?_⟩
  rw [hlength, ← List.length_map String.toList, hlines]
  decide +kernel

/-- A text that is typed in has one line of output for each of its lines, if the program succeeds. -/
def PrintsLines (args : List String) : Prop :=
  ∀ (working : Place) (now : Instant) (text : String),
    (outcome working now (.ok text) args).exitCode = 0 →
    ∃ results : List String,
      (outcome working now (.ok text) args).stdout.toList.splitOn '\n' =
        results.map String.toList ++ [[]] ∧
      results.length = (Text.lines text).length

/-- The number of pieces that the output is split into says that there are other lines. -/
theorem not_printsLines_of_length {args : List String} (text : String)
    (hexit : (outcome ⟨[], .directory []⟩ default (.ok text) args).exitCode = 0)
    (hpieces : ((outcome ⟨[], .directory []⟩ default (.ok text) args).stdout.toList.splitOn
      '\n').length ≠ (Text.lines text).length + 1) : ¬ PrintsLines args := by
  intro h
  obtain ⟨results, hstdout, hlength⟩ := h _ _ text hexit
  rw [hstdout, List.length_append, List.length_map, hlength] at hpieces
  exact hpieces rfl

/-- The standard configuration with a line break between groups of digits. -/
def brokenGroups : Config :=
  { (Standard.draft.withDecimalSeparator '.').withGroupingSeparator (some '\n') with
    acceptable := by decide +kernel }

theorem evaluateDocument_brokenGroups :
    ((Calculator.ofConfig brokenGroups).evaluateDocument (.fresh default) "1 + 1\n1234.5").2 =
      ["2", "1\n234.5"] := by
  have hlines : Text.lines "1 + 1\n1234.5" = ["1 + 1", "1234.5"] := by decide
  have hsum : (Calculator.ofConfig brokenGroups).lexicon.lex "1 + 1" =
      .ok [⟨.number, "1", 0⟩, ⟨.operator, "+", 2⟩, ⟨.number, "1", 4⟩] :=
    Lexicon.lex_eq_ok.2 (by decide +kernel)
  have hnumber : (Calculator.ofConfig brokenGroups).lexicon.lex "1234.5" =
      .ok [⟨.number, "1234.5", 0⟩] :=
    Lexicon.lex_eq_ok.2 (by decide +kernel)
  simp only [Calculator.evaluateDocument, hlines, Calculator.evaluateLines,
    Calculator.evaluateLine, Calculator.compile, hsum, hnumber]
  decide +kernel

/--
A request for the version succeeds as well, and prints something else. A line break between groups of
digits is accepted, and breaks the line.
-/
theorem not_printsLines :
    ¬ PrintsLines ["--version"] ∧ ¬ PrintsLines ["--grouping-separator", "\n"] := by
  constructor
  · exact not_printsLines_of_length "1 + 1\n1234.5" (by decide +kernel) (by decide +kernel)
  · have hexit : (outcome ⟨[], .directory []⟩ default (.ok "1 + 1\n1234.5")
        ["--grouping-separator", "\n"]).exitCode = 0 := by
      decide +kernel
    have houtcome : outcome ⟨[], .directory []⟩ default (.ok "1 + 1\n1234.5")
        ["--grouping-separator", "\n"] =
          run { groupingSeparator := some '\n' } default (.ok "1 + 1\n1234.5") := by
      have hargs : parse ["--grouping-separator", "\n"] =
          .ok (.evaluate { groupingSeparator := some '\n' }) := by
        decide +kernel
      unfold outcome respond
      rw [hargs]
      rfl
    refine not_printsLines_of_length "1 + 1\n1234.5" hexit ?_
    rw [houtcome] at hexit ⊢
    obtain ⟨text, config, hdocument, hconfig, hstdout⟩ := run_eq_of_exitCode hexit
    cases hdocument
    have hbuild : ((Standard.draft.withDecimalSeparator '.').withGroupingSeparator
        (some '\n')).build = .ok brokenGroups :=
      Draft.build_eq_ok_iff.2 rfl
    obtain rfl : config = brokenGroups := Except.ok.inj (hconfig.symm.trans hbuild)
    rw [hstdout, evaluateDocument_brokenGroups]
    decide

end CommandLine

end LineCalc
