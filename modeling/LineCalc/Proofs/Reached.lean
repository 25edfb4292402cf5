import LineCalc.Proofs.Calls

/-!
# Environments that are reached

What holds of a calculator at any time, after any calls that return: the environment is sound, and
the next line appends one value to the history and leaves everything else but the variables it
assigns.

* **`Calculator.Reached`**: the environments that calls lead to, at whatever times they are made.
* **`Calculator.Reached.sound`**: every environment that is reached is sound.
* **`Calculator.reached_invariant`**: what holds of an environment that is reached, and of the next
  line in it.
-/

namespace LineCalc

namespace Calculator

/--
The environments that calls lead to, at whatever times they are made. A call that does not return
leads nowhere.
-/
inductive Reached (c : Calculator) : Environment → Prop where
  | fresh (now : Instant) : Reached c (.fresh now)
  | clock {env : Environment} (h : Reached c env) (now : Instant) : Reached c { env with now }
  | evaluate {env after : Environment} {line : String} {value : Value} (h : Reached c env)
      (hcall : c.evaluate? env line = some (after, value)) : Reached c after
  | evaluateLine {env after : Environment} {line text : String} (h : Reached c env)
      (hcall : c.evaluateLine? env line = some (after, text)) : Reached c after
  | evaluateDocument {env after : Environment} {text : String} {results : List String}
      (h : Reached c env) (hcall : c.evaluateDocument? env text = some (after, results)) :
      Reached c after

variable {c : Calculator}

/-- Every environment that is reached is sound. -/
theorem Reached.sound (hconfig : c.config.Built) {env : Environment} (h : c.Reached env) :
    env.Sound c.config.units := by
  induction h with
  | fresh now => exact .fresh now
  | clock _ now ih => exact ih.atTime now
  | @evaluate _ _ line _ _ hcall ih =>
    have hline := sound_of_evaluate hconfig ih line
    rwa [(evaluate?_eq_some_iff.1 hcall).2] at hline
  | @evaluateLine _ _ line _ _ hcall ih =>
    have hline := sound_of_evaluate hconfig ih line
    rwa [← fst_evaluateLine, (evaluateLine?_eq_some_iff.1 hcall).2] at hline
  | @evaluateDocument _ _ text _ _ hcall ih =>
    have hlines := sound_of_evaluateLines hconfig ih (Text.lines text)
    rwa [(evaluateLines?_eq_some_iff.1 hcall).2] at hlines

/--
After any calls the environment is sound. The next line, if its reading ends, appends its value to
the history; if no plan can be made of it, that is all it does, and else it changes no variable but
those that its plan assigns. Showing its value leaves the same environment, and nothing is shown
exactly when there is no value or the line fails. A document is evaluated line by line. A line is
evaluated exactly if its reading ends, and all are where all signs are names.
-/
theorem reached_invariant (hconfig : c.config.Built) {env : Environment} (henv : c.Reached env) :
    env.Sound c.config.units ∧
      (∀ line after value, c.evaluate? env line = some (after, value) →
        after.lines = env.lines ++ [value] ∧
          after.now = env.now ∧
          (∀ e, c.compile? line = some (.error e) → after = env.record .empty ∧ value = .empty) ∧
          (∀ plan name, c.compile? line = some (.ok plan) → .assign name ∉ plan →
            after.lookup? name = env.lookup? name) ∧
          ∃ text, c.evaluateLine? env line = some (after, text) ∧
            (text = "" ↔ value = .empty ∨ ∃ message, value = .failed message)) ∧
      (∀ line, (c.evaluate? env line).isSome = (c.lexicon.read? line).isSome ∧
        (c.evaluateLine? env line).isSome = (c.lexicon.read? line).isSome) ∧
      (∀ text, (c.evaluateDocument? env text).map Prod.fst =
        (Text.lines text).foldlM (fun env line => (c.evaluateLine? env line).map Prod.fst) env) ∧
      (SignsNamed c.config →
        (∀ line, (c.evaluate? env line).isSome = true) ∧
          ∀ text, (c.evaluateDocument? env text).isSome = true) := by
  have hsound := henv.sound hconfig
  refine ⟨hsound, fun line after value hcall => ?_,
    fun line => ⟨isSome_evaluate?, isSome_evaluateLine?⟩, fun text => ?_, fun hsigns => ⟨?_, ?_⟩⟩
  · obtain ⟨hends, hline⟩ := evaluate?_eq_some_iff.1 hcall
    have hafter : (c.evaluate env line).1 = after := congrArg Prod.fst hline
    have hvalue : (c.evaluate env line).2 = value := congrArg Prod.snd hline
    refine ⟨?_, ?_, fun e hcompile => ?_, fun plan name hcompile hname => ?_, ?_⟩
    · rw [← hafter, ← hvalue]
      exact lines_evaluate c env line
    · rw [← hafter]
      exact now_evaluate c env line
    · rw [evaluate_of_error (compile?_eq_some_iff.1 hcompile).2] at hline
      cases hline
      exact ⟨rfl, rfl⟩
    · rw [← hafter]
      exact lookup?_evaluate (compile?_eq_some_iff.1 hcompile).2 hname
    · refine ⟨_, evaluateLine?_eq_some_iff.2 ⟨hends, Prod.ext hafter rfl⟩, ?_⟩
      rw [snd_evaluateLine_eq_empty_iff hconfig hsound line, hvalue]
  · simp only [map_fst_evaluateLine?]
    exact map_fst_evaluateLines? c env (Text.lines text)
  · intro line
    rw [isSome_evaluate?]
    exact isSome_read?_of_signsNamed hconfig hsigns line
  · exact fun text => isSome_evaluateLines?_of_signsNamed hconfig hsigns env (Text.lines text)

/--
A document of the standard vocabulary that moves a date, adds to it and fails leaves all sound, and
one more line appends its value.
-/
theorem reached_invariant_standard :
    ∃ after results, (Calculator.ofConfig .standard).evaluateDocument? (.fresh default)
        "x = today - 36 hours\ny = 3 kg\nx + y" = some (after, results) ∧
      after.Sound Config.standard.units ∧
      ∃ next value, (Calculator.ofConfig .standard).evaluate? after "x + 1 day" =
          some (next, value) ∧
        next.lines = after.lines ++ [value] := by
  have hsigns : SignsNamed (Calculator.ofConfig .standard).config :=
    Lexicon.signsNamed_standard
  obtain ⟨⟨after, results⟩, hcall⟩ := Option.isSome_iff_exists.1
    (isSome_evaluateLines?_of_signsNamed Standard.built_draft hsigns (.fresh default)
      (Text.lines "x = today - 36 hours\ny = 3 kg\nx + y"))
  obtain ⟨hsound, hline, -, -, hreturns⟩ :=
    reached_invariant (c := .ofConfig .standard) Standard.built_draft
      (.evaluateDocument (.fresh default) hcall)
  obtain ⟨⟨next, value⟩, hnext⟩ :=
    Option.isSome_iff_exists.1 ((hreturns hsigns).1 "x + 1 day")
  exact ⟨after, results, hcall, hsound, next, value, hnext, (hline _ _ _ hnext).1⟩

end Calculator

end LineCalc
