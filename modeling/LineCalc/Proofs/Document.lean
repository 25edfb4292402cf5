import LineCalc.Proofs.Calls

/-!
# Documents

A document is evaluated line by line, and the environment is all that one line hands on to the next.
So a document falls apart at each of its newlines into two that are evaluated one after the other,
and every line has one result and records one value, where the reading of every line ends.

* **`Text.lines_append`**: the lines of a text, cut after a newline.
* **`Text.toList_lines`**: the lines of a text, by what stands between its newlines.
* **`Calculator.evaluateLines_getElem?`**, **`Calculator.evaluateLines?_getElem?`**: the result and
  the value of each line.
* **`Calculator.evaluateDocument_append`**: a document is its lines.
-/

namespace LineCalc

namespace Text

/-! ## The lines of a text -/

theorem linesAfter_append (line first rest : List Char) :
    linesAfter line (first ++ '\n' :: rest) =
      linesAfter line (first ++ ['\n']) ++ linesAfter [] rest := by
  induction first generalizing line with
  | nil => simp [linesAfter]
  | cons c first ih =>
    simp only [List.cons_append, linesAfter]
    split
    · rw [ih, List.cons_append]
    · exact ih (c :: line)

/-- What follows a newline has the lines that it has on its own. -/
theorem lines_append (a b : String) : lines (a ++ "\n" ++ b) = lines (a ++ "\n") ++ lines b := by
  have hwhole : (a ++ "\n" ++ b).toList = a.toList ++ '\n' :: b.toList := by simp
  have hfirst : (a ++ "\n").toList = a.toList ++ ['\n'] := by simp
  simp only [lines, hwhole, hfirst]
  rw [linesAfter_append, List.map_append]

/-- A line without one carriage return at its end. -/
def withoutReturn (line : List Char) : List Char :=
  if line.getLast? = some '\r' then line.dropLast else line

/--
What stands before each newline, without a carriage return right before it, and what stands after
the last one unless that is nothing.
-/
def betweenNewlines (text : List Char) : List (List Char) :=
  (text.splitOn '\n').dropLast.map withoutReturn ++
    (text.splitOn '\n').getLast?.toList.filter (· ≠ [])

theorem reverse_dropReturn (line : List Char) :
    (dropReturn line).reverse = withoutReturn line.reverse := by
  unfold dropReturn withoutReturn
  rw [List.getLast?_reverse]
  split
  · rw [List.head?_cons, if_pos rfl, List.dropLast_reverse, List.tail_cons]
  · rename_i hreturn
    rw [if_neg]
    intro hhead
    obtain ⟨rest, rfl⟩ := List.head?_eq_some_iff.1 hhead
    exact hreturn rest rfl

/-- A line that has been passed in part is completed by the first piece of what follows. -/
theorem linesAfter_eq (line text : List Char) (hline : '\n' ∉ line) :
    linesAfter line text = betweenNewlines (line.reverse ++ text) := by
  induction text generalizing line with
  | nil =>
    have hpiece : (line.reverse ++ []).splitOn '\n' = [line.reverse] := by
      rw [List.append_nil]
      exact List.splitOn_eq_singleton (by simpa using hline)
    unfold betweenNewlines
    rw [hpiece]
    cases line <;> simp [linesAfter]
  | cons c rest ih =>
    unfold linesAfter
    split
    · rename_i hnewline
      have hpieces : (line.reverse ++ c :: rest).splitOn '\n' = line.reverse :: rest.splitOn '\n' := by
        rw [hnewline]
        exact List.splitOn_append_cons_self_of_not_mem (by simpa using hline) rest
      have hrest : rest.splitOn '\n' ≠ [] := List.splitOn_ne_nil '\n' rest
      rw [ih [] List.not_mem_nil, reverse_dropReturn, betweenNewlines, betweenNewlines, hpieces,
        List.dropLast_cons_of_ne_nil hrest, List.map_cons, List.getLast?_cons_of_ne_nil hrest]
      rfl
    · rename_i hother
      have hmore : '\n' ∉ c :: line := List.not_mem_cons_of_ne_of_not_mem (Ne.symm hother) hline
      rw [ih (c :: line) hmore, List.reverse_cons, List.append_assoc]
      rfl

theorem toList_lines (text : String) :
    (lines text).map String.toList = betweenNewlines text.toList := by
  have hlines : linesAfter [] text.toList = betweenNewlines text.toList :=
    linesAfter_eq [] text.toList List.not_mem_nil
  rw [lines, List.map_map, hlines]
  simp [Function.comp_def]

/-- Only one carriage return belongs to a newline, and one without a newline to the line. -/
example : lines "a\r\r\n\nb\r" = ["a\r", "", "b\r"] := by decide

end Text

namespace Calculator

/-! ## One line after the other -/

/-- What one line does: it has a result, and the value that it records is the last one. -/
theorem evaluateLines_cons (c : Calculator) (env : Environment) (line : String)
    (rest : List String) :
    c.evaluateLines env (line :: rest) =
      ((c.evaluateLines (c.evaluateLine env line).1 rest).1,
        (c.evaluateLine env line).2 :: (c.evaluateLines (c.evaluateLine env line).1 rest).2) :=
  rfl

/-- Each line has one result and records one value, in the environment that those before it leave. -/
theorem evaluateLines_getElem? (c : Calculator) (env : Environment) (lines : List String) :
    ∃ values, (c.evaluateLines env lines).1.lines = env.lines ++ values ∧
      values.length = lines.length ∧ (c.evaluateLines env lines).2.length = lines.length ∧
      ∀ (i : Nat) (line : String), lines[i]? = some line →
        values[i]? = some (c.evaluate (c.evaluateLines env (lines.take i)).1 line).2 ∧
        (c.evaluateLines env lines).2[i]? =
          some (c.evaluateLine (c.evaluateLines env (lines.take i)).1 line).2 := by
  induction lines generalizing env with
  | nil => exact ⟨[], (List.append_nil _).symm, rfl, rfl, fun i line h => by simp at h⟩
  | cons first rest ih =>
    obtain ⟨values, hvalues, hlength, hresults, hall⟩ := ih (c.evaluateLine env first).1
    refine ⟨(c.evaluate env first).2 :: values, ?_, ?_, ?_, fun i line hline => ?_⟩
    · rw [evaluateLines_cons, hvalues, fst_evaluateLine, lines_evaluate, List.append_assoc]
      rfl
    · rw [List.length_cons, List.length_cons, hlength]
    · rw [evaluateLines_cons, List.length_cons, List.length_cons, hresults]
    · cases i with
      | zero =>
        obtain rfl : first = line := by simpa using hline
        exact ⟨rfl, rfl⟩
      | succ i => exact hall i line hline

theorem evaluateLines?_append (c : Calculator) (env : Environment) (first rest : List String) :
    c.evaluateLines? env (first ++ rest) =
      (c.evaluateLines? env first).bind fun (middle, results) =>
        (c.evaluateLines? middle rest).map fun (after, more) => (after, results ++ more) := by
  -- induction on the first part: where one of its lines does not return, neither side does
  induction first generalizing env with
  | nil => simp [evaluateLines?]
  | cons line first ih =>
    rw [List.cons_append, evaluateLines?, evaluateLines?]
    cases c.evaluateLine? env line with
    | none => rfl
    | some left =>
      obtain ⟨next, result⟩ := left
      simp only [Option.bind_eq_bind, Option.bind_some, ih]
      cases c.evaluateLines? next first with
      | none => rfl
      | some passed =>
        obtain ⟨middle, results⟩ := passed
        simp only [Option.bind_some]
        cases c.evaluateLines? middle rest <;> rfl

/-- The results of the first lines are the first results. -/
theorem snd_evaluateLines_take (c : Calculator) (env : Environment) (lines : List String)
    (i : Nat) :
    (c.evaluateLines env (lines.take i)).2 = (c.evaluateLines env lines).2.take i := by
  induction lines generalizing env i with
  | nil => simp [evaluateLines]
  | cons line rest ih =>
    cases i with
    | zero => rfl
    | succ i => exact congrArg _ (ih _ i)

/-- What lines give that return: each has the result that it has after those before it. -/
theorem evaluateLines?_getElem? {c : Calculator} {env after : Environment}
    {lines results : List String} (h : c.evaluateLines? env lines = some (after, results)) :
    ∃ values, after.lines = env.lines ++ values ∧ values.length = lines.length ∧
      results.length = lines.length ∧
      ∀ (i : Nat) (line : String), lines[i]? = some line →
        ∃ before next value result,
          c.evaluateLines? env (lines.take i) = some (before, results.take i) ∧
          c.evaluate? before line = some (next, value) ∧ values[i]? = some value ∧
          c.evaluateLine? before line = some (next, result) ∧ results[i]? = some result := by
  obtain ⟨hends, hlines⟩ := evaluateLines?_eq_some_iff.1 h
  obtain ⟨values, hvalues, hlength, hresults, hall⟩ := c.evaluateLines_getElem? env lines
  have htake := c.snd_evaluateLines_take env lines
  rw [hlines] at hvalues hresults hall htake
  refine ⟨values, hvalues, hlength, hresults, fun i line hline => ?_⟩
  have hend : (c.lexicon.read? line).isSome = true := hends line (List.mem_of_getElem? hline)
  obtain ⟨hvalue, hresult⟩ := hall i line hline
  refine ⟨(c.evaluateLines env (lines.take i)).1, _, _, _, evaluateLines?_eq_some_iff.2 ⟨?_, ?_⟩,
    evaluate?_eq_some_iff.2 ⟨hend, rfl⟩, hvalue, evaluateLine?_eq_some_iff.2 ⟨hend, rfl⟩, hresult⟩
  · exact fun earlier hearlier => hends earlier (List.mem_of_mem_take hearlier)
  · exact Prod.ext rfl (htake i)

/--
A text that is cut after a newline is evaluated in two parts, the second one in the environment that
the first one leaves. The lines of a text are what stands between its newlines. It is evaluated if
the reading of each of them ends, as it does where all signs are names; then each line has one
result, which is the one it has on its own after those before it, and records one value.
-/
theorem evaluateDocument_append (c : Calculator) (env : Environment) :
    (∀ a b : String,
      c.evaluateDocument? env (a ++ "\n" ++ b) =
        (c.evaluateDocument? env (a ++ "\n")).bind fun (middle, results) =>
          (c.evaluateDocument? middle b).map fun (after, more) => (after, results ++ more)) ∧
      (∀ text : String, ∃ lines : List String,
        lines.map String.toList = Text.betweenNewlines text.toList ∧
          ((c.evaluateDocument? env text).isSome = true ↔
            ∀ line ∈ lines, (c.lexicon.read? line).isSome = true) ∧
          ∀ after results, c.evaluateDocument? env text = some (after, results) →
            ∃ values : List Value, after.lines = env.lines ++ values ∧
              values.length = lines.length ∧ results.length = lines.length ∧
              ∀ (i : Nat) (line : String), lines[i]? = some line →
                ∃ before next value result,
                  c.evaluateLines? env (lines.take i) = some (before, results.take i) ∧
                  c.evaluate? before line = some (next, value) ∧ values[i]? = some value ∧
                  c.evaluateLine? before line = some (next, result) ∧
                  results[i]? = some result) ∧
      (c.config.Built → SignsNamed c.config →
        ∀ text : String, (c.evaluateDocument? env text).isSome = true) := by
  refine ⟨fun a b => ?_, fun text => ?_, fun hconfig hsigns text => ?_⟩
  · unfold evaluateDocument?
    rw [Text.lines_append, evaluateLines?_append]
  · exact ⟨Text.lines text, Text.toList_lines text, isSome_evaluateLines?,
      fun after results => evaluateLines?_getElem?⟩
  · exact isSome_evaluateLines?_of_signsNamed hconfig hsigns env (Text.lines text)

/-- A document of the standard vocabulary with an empty line has three results. -/
theorem evaluateDocument_append_standard :
    Config.standard.Built ∧ SignsNamed .standard ∧ ∃ after results,
      (ofConfig .standard).evaluateDocument? (.fresh default) "x = 2 cm\r\n\n(x" =
          some (after, results) ∧
        after.lines.length = 3 ∧ results.length = 3 := by
  obtain ⟨-, hlines, hreturns⟩ := evaluateDocument_append (ofConfig .standard) (.fresh default)
  obtain ⟨⟨after, results⟩, hcall⟩ := Option.isSome_iff_exists.1
    (hreturns Standard.built_draft Lexicon.signsNamed_standard "x = 2 cm\r\n\n(x")
  obtain ⟨lines, hlist, -, hresults⟩ := hlines "x = 2 cm\r\n\n(x"
  obtain ⟨values, hvalues, hrecorded, hshown, -⟩ := hresults after results hcall
  have hthree : lines.length = 3 := by
    rw [← List.length_map (f := String.toList), hlist]
    decide
  refine ⟨Standard.built_draft, Lexicon.signsNamed_standard, after, results, hcall, ?_,
    hshown.trans hthree⟩
  have hfresh : (Environment.fresh default).lines = [] := rfl
  rw [hvalues, hfresh, List.nil_append, hrecorded, hthree]

end Calculator

end LineCalc
