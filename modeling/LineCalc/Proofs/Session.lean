import LineCalc.Calculator
import LineCalc.Proofs.Origin
import LineCalc.Proofs.Soundness

/-!
# The lines of a session

Each line of a session leaves the environment sound: it appends one value to the history and leaves
everything else but the variables that its plan assigns. Nothing is shown for it exactly when there
is no value or the line fails.

* **`sound_of_ofTokens`**: the units of a plan are registered.
* **`Calculator.sound_of_evaluate`**, **`Calculator.sound_of_evaluateLines`**: lines leave a sound
  environment.
* **`Calculator.lines_evaluate`**, **`Calculator.lookup?_evaluate`**: what a line adds and what it
  leaves alone.
* **`Calculator.snd_evaluateLine_eq_empty_iff`**: when nothing is shown.
-/

namespace LineCalc

/-! ## The units of a plan -/

theorem sound_of_ofTokens {config : Config} (hunits : config.units.Consistent)
    {tokens : List Token} {plan : Plan} (h : Plan.ofTokens config tokens = .ok plan) :
    ∀ op ∈ plan, op.Sound config.units := by
  intro op hop
  have hfrom := comesFrom_of_ofTokens h op hop
  cases op with
  | unit u =>
    obtain ⟨name, hlookup⟩ := hfrom
    exact hunits.lookup_mem name u hlookup
  | _ => trivial

/-! ## What is shown -/

namespace NumberFormat

theorem groupDigits_ne_nil {separator : Char} {digits : List Char} (h : digits ≠ []) :
    groupDigits separator digits ≠ [] := by
  cases digits with
  | nil => exact absurd rfl h
  | cons d rest =>
    unfold groupDigits
    split <;> simp

theorem write_ne_nil (f : NumberFormat) (d : Decimal) : f.write d ≠ [] := by
  have hdigits : (f.round d).integerDigits ≠ [] := Nat.toDigits_ne_nil
  cases hgroup : f.groupingSeparator with
  | none => simp [write, hgroup, hdigits]
  | some separator => simp [write, hgroup, groupDigits_ne_nil hdigits]

/-- Nothing is shown for anything but a quantity or an instant. -/
theorem formatValue_eq_empty_iff (f : NumberFormat) (v : Value) :
    f.formatValue v = "" ↔ v.isStorable = false := by
  cases v with
  | number q =>
    simp only [formatValue]
    split
    · simp [format, write_ne_nil, Value.isStorable]
    · simp [toString, Value.isStorable]
  | moment instant hasTime =>
    simp only [formatValue]
    split
    · simp [toString, Value.isStorable]
    · simp [Date.toText, Value.isStorable]
  | marker | empty | failed => simp [formatValue, Value.isStorable]

end NumberFormat

namespace Calculator

theorem isStorable_shown (c : Calculator) (compiled : Except CompileError Plan) (v : Value) :
    (c.shown compiled v).isStorable = v.isStorable := by
  rcases compiled with e | plan
  · rfl
  · cases v with
    | number q =>
      simp only [shown, selectUnit]
      split
      · rfl
      · split <;> rfl
    | _ => rfl

/-! ## Lines -/

variable {c : Calculator}

theorem fst_evaluateLine (c : Calculator) (env : Environment) (line : String) :
    (c.evaluateLine env line).1 = (c.evaluate env line).1 := rfl

theorem fst_evaluateLines (c : Calculator) (env : Environment) (lines : List String) :
    (c.evaluateLines env lines).1 =
      lines.foldl (fun env line => (c.evaluateLine env line).1) env := by
  induction lines generalizing env with
  | nil => rfl
  | cons line rest ih => exact ih (c.evaluateLine env line).1

theorem compile_eq_ok {line : String} {plan : Plan} :
    c.compile line = .ok plan ↔
      ∃ tokens, c.lexicon.lex line = .ok tokens ∧ Plan.ofTokens c.config tokens = .ok plan := by
  unfold compile planOf
  constructor
  · intro h
    split at h
    · cases h
    · rename_i tokens hlex
      split at h <;> cases h
      rename_i hplan
      exact ⟨tokens, hlex, hplan⟩
  · rintro ⟨tokens, hlex, hplan⟩
    simp only [hlex, hplan]

theorem sound_of_compile (hconfig : c.config.Built) {line : String} {plan : Plan}
    (h : c.compile line = .ok plan) : ∀ op ∈ plan, op.Sound c.config.units := by
  obtain ⟨tokens, -, hplan⟩ := compile_eq_ok.1 h
  exact sound_of_ofTokens hconfig.consistent hplan

theorem sound_of_evaluate (hconfig : c.config.Built) {env : Environment}
    (henv : env.Sound c.config.units) (line : String) :
    (c.evaluate env line).1.Sound c.config.units := by
  unfold evaluate
  cases hcompile : c.compile line with
  | error e => exact henv.record rfl .empty
  | ok plan =>
    exact Machine.sound_of_execute hconfig.consistent henv (sound_of_compile hconfig hcompile)

theorem sound_of_evaluateLines (hconfig : c.config.Built) {env : Environment}
    (henv : env.Sound c.config.units) (lines : List String) :
    (c.evaluateLines env lines).1.Sound c.config.units := by
  rw [fst_evaluateLines]
  induction lines generalizing env with
  | nil => exact henv
  | cons line rest ih => exact ih (sound_of_evaluate hconfig henv line)

theorem lines_evaluate (c : Calculator) (env : Environment) (line : String) :
    (c.evaluate env line).1.lines = env.lines ++ [(c.evaluate env line).2] := by
  unfold evaluate
  cases c.compile line with
  | error e => exact Environment.lines_record env .empty
  | ok plan => exact (Machine.frame_of_execute env plan).1

theorem now_evaluate (c : Calculator) (env : Environment) (line : String) :
    (c.evaluate env line).1.now = env.now := by
  unfold evaluate
  cases c.compile line with
  | error e => rfl
  | ok plan => exact (Machine.frame_of_execute env plan).2.1

/-- A line of which no plan can be made records that there is nothing, and that is all. -/
theorem evaluate_of_error {env : Environment} {line : String} {e : CompileError}
    (h : c.compile line = .error e) : c.evaluate env line = (env.record .empty, .empty) := by
  rw [evaluate, h]
  rfl

theorem lookup?_evaluate {env : Environment} {line : String} {plan : Plan} {name : String}
    (h : c.compile line = .ok plan) (hname : .assign name ∉ plan) :
    (c.evaluate env line).1.lookup? name = env.lookup? name := by
  rw [evaluate, h]
  exact (Machine.frame_of_execute env plan).2.2 name hname

/-- Nothing is shown for a line exactly when there is no value or it has failed. -/
theorem snd_evaluateLine_eq_empty_iff (hconfig : c.config.Built) {env : Environment}
    (henv : env.Sound c.config.units) (line : String) :
    (c.evaluateLine env line).2 = "" ↔
      (c.evaluate env line).2 = .empty ∨ ∃ message, (c.evaluate env line).2 = .failed message := by
  have hrecordable : (c.evaluate env line).2.isRecordable = true := by
    refine ((sound_of_evaluate hconfig henv line).lines _ ?_).1
    simp [lines_evaluate]
  have hshown : (c.evaluateLine env line).2 =
      c.config.format.formatValue (c.shown (c.compile line) (c.evaluate env line).2) := rfl
  rw [hshown, NumberFormat.formatValue_eq_empty_iff, isStorable_shown]
  cases hvalue : (c.evaluate env line).2 with
  | marker u =>
    -- nothing would be shown for a unit on its own, but it is not recorded
    rw [hvalue] at hrecordable
    cases hrecordable
  | number | moment | empty | failed => simp [Value.isStorable]

end Calculator

end LineCalc
