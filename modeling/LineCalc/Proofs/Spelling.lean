import LineCalc.Calculator
import LineCalc.Proofs.Lowercase
import LineCalc.Proofs.Results

/-!
# What a plan depends on

Of a name a plan depends on the lowercase only, of a literal and of a free word on the text, and of
the other tokens on the kind alone. Where a token stands is told in a failure and nowhere else. So
lines have the same plan, or none, when their tokens agree in all that.

* **`Token.canonical`**: a token without what no plan depends on.
* **`ParseState.toOption_run_canonical`**: canonical tokens make the same plan.
* **`Calculator.toOption_compile_congr`**: lines of the same canonical tokens have the same plan.
-/

namespace LineCalc

open Text

/-- What a token has besides its kind that a plan depends on. -/
def Token.spelling (t : Token) : String :=
  match t.kind with
  | .number | .date | .time | .identifier => t.text
  | .operator | .function | .aggregator | .unit => lowercase t.text
  | .openParen | .closeParen | .semicolon | .assignment | .comment => ""

/-- A token without what no plan depends on. -/
def Token.canonical (t : Token) : Token where
  kind := t.kind
  text := t.spelling
  offset := 0

@[simp] theorem Token.kind_canonical (t : Token) : t.canonical.kind = t.kind := rfl

theorem lowercase_lowercase (s : String) : lowercase (lowercase s) = lowercase s := by
  simp only [lowercase, String.toList_ofList, lower_lower]

@[simp] theorem NameTable.find?_lowercase {α : Type} (t : NameTable α) (name : String) :
    t.find? (lowercase name) = t.find? name := by
  rw [find?, find?, lowercase_lowercase]

@[simp] theorem Registry.lookup_lowercase (r : Registry) (name : String) :
    r.lookup (lowercase name) = r.lookup name :=
  r.byName.find?_lowercase name

namespace ParseState

variable {config : Config}

@[simp] theorem resolve_lowercase (st : ParseState) (symbol : String) :
    st.resolve config (lowercase symbol) = st.resolve config symbol := by
  simp only [resolve, NameTable.find?_lowercase]

/-- A canonical token is taken in as the token is; only what is said about a failure may differ. -/
theorem toOption_step_canonical (st : ParseState) (t : Token) :
    (st.step config t.canonical).toOption = (st.step config t).toOption := by
  obtain ⟨kind, text, offset⟩ := t
  cases kind with
  | number | date | time | identifier | openParen | closeParen | semicolon | comment | assignment =>
    rfl
  | operator =>
    simp only [step, Token.canonical, Token.spelling, resolve_lowercase]
    cases st.resolve config text <;> rfl
  | unit =>
    simp only [step, Token.canonical, Token.spelling, Registry.lookup_lowercase]
    cases config.units.lookup text <;> rfl
  | aggregator =>
    simp only [step, Token.canonical, Token.spelling, NameTable.find?_lowercase]
    cases config.aggregators.find? text <;> rfl
  | function =>
    simp only [step, Token.canonical, Token.spelling, NameTable.find?_lowercase]
    cases config.functions.find? text <;> rfl

theorem step_canonical_eq_ok {st next : ParseState} {t : Token} (h : st.step config t = .ok next) :
    st.step config t.canonical = .ok next := by
  rw [← toOption_eq_some, toOption_step_canonical, h]
  rfl

theorem step_canonical_eq_error {st : ParseState} {t : Token} {failure : ParseFailure}
    (h : st.step config t = .error failure) :
    ∃ other, st.step config t.canonical = .error other := by
  have hsame : (st.step config t.canonical).toOption = _ := toOption_step_canonical st t
  rw [h] at hsame
  cases hstep : st.step config t.canonical with
  | ok next =>
    rw [hstep] at hsame
    cases hsame
  | error other => exact ⟨other, rfl⟩

/-- Canonical tokens make the same plan. -/
theorem toOption_run_canonical (st : ParseState) (tokens : List Token) :
    (run config st (tokens.map Token.canonical)).toOption = (run config st tokens).toOption := by
  -- the cases of the run: the end, the last token, an assignment, a call, a function that is
  -- unknown, and a token that stands for itself, taken in or not
  fun_induction run config st tokens with
  | case1 st => rfl
  | case2 st token =>
    rw [List.map_singleton, run]
    cases hstep : st.step config token with
    | ok next => rw [step_canonical_eq_ok hstep]
    | error failure =>
      obtain ⟨other, hother⟩ := step_canonical_eq_error hstep
      rw [hother]
      rfl
  | case3 st token next rest hassign ih =>
    have htext : token.canonical.text = token.text := by
      simp only [Token.canonical, Token.spelling, hassign.1]
    rw [List.map_cons, List.map_cons, run]
    simp only [Token.kind_canonical, htext, if_pos hassign, ih]
  | case4 st token next rest hassign hcall function hfind ih =>
    have hcanonical : config.functions.find? token.canonical.text = some function := by
      simp only [Token.canonical, Token.spelling, hcall.1, NameTable.find?_lowercase, hfind]
    rw [List.map_cons, List.map_cons, run]
    simp only [Token.kind_canonical, hcanonical, if_neg hassign, if_pos hcall, ih]
  | case5 st token next rest hassign hcall hfind =>
    have hcanonical : config.functions.find? token.canonical.text = none := by
      simp only [Token.canonical, Token.spelling, hcall.1, NameTable.find?_lowercase, hfind]
    rw [List.map_cons, List.map_cons, run]
    simp only [Token.kind_canonical, hcanonical, if_neg hassign, if_pos hcall]
    rfl
  | case6 st token next rest hassign hcall after hstep ih =>
    rw [List.map_cons] at ih
    rw [List.map_cons, List.map_cons, run]
    simp only [Token.kind_canonical, if_neg hassign, if_neg hcall, step_canonical_eq_ok hstep, ih]
  | case7 st token next rest hassign hcall failure hstep =>
    obtain ⟨other, hother⟩ := step_canonical_eq_error hstep
    rw [List.map_cons, List.map_cons, run]
    simp only [Token.kind_canonical, if_neg hassign, if_neg hcall, hother]
    rfl

end ParseState

namespace Calculator

variable {c : Calculator} {a b : String}

/-- The plan of a line is that of its canonical tokens. -/
theorem toOption_compile (c : Calculator) (line : String) :
    (c.compile line).toOption =
      ((c.lexicon.lex line).toOption.map (List.map Token.canonical)).bind fun tokens =>
        (Plan.ofTokens c.config tokens).toOption := by
  unfold compile planOf
  cases c.lexicon.lex line with
  | error e => rfl
  | ok tokens =>
    have hrun : (Plan.ofTokens c.config (tokens.map Token.canonical)).toOption =
        (Plan.ofTokens c.config tokens).toOption := ParseState.toOption_run_canonical {} tokens
    dsimp only [Except.toOption, Option.map_some, Option.bind_some] at hrun ⊢
    rw [hrun]
    cases Plan.ofTokens c.config tokens <;> rfl

/-- Lines of the same canonical tokens have the same plan, or none of them has one. -/
theorem toOption_compile_congr
    (h : (c.lexicon.lex a).toOption.map (List.map Token.canonical) =
      (c.lexicon.lex b).toOption.map (List.map Token.canonical)) :
    (c.compile a).toOption = (c.compile b).toOption := by
  rw [toOption_compile, toOption_compile, h]

/-- Lines with the same plan do the same, and so do lines without one. -/
theorem evaluate_congr (h : (c.compile a).toOption = (c.compile b).toOption) (env : Environment) :
    c.evaluate env a = c.evaluate env b := by
  unfold evaluate
  cases ha : c.compile a <;> cases hb : c.compile b <;> simp_all [Except.toOption, runCompiled]

end Calculator

end LineCalc
