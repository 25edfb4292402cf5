import LineCalc.Proofs.Progress

/-!
# Calls that return

A call returns exactly if the reading of every line that it evaluates ends, and then it gives what
the function that is run gives. Where all signs are names, as far as names without characters make
it necessary, every call returns.

* **`Calculator.evaluate?_eq_some_iff`**, **`Calculator.evaluateLine?_eq_some_iff`**: one line.
* **`Calculator.evaluateLines?_eq_some_iff`**: lines one after the other.
* **`Calculator.isSome_evaluateLines?_of_signsNamed`**: where every call returns.
-/

namespace LineCalc

namespace Calculator

variable {c : Calculator} {env : Environment} {line : String} {lines : List String}

/-! ## One line -/

theorem compile?_eq_some_iff {compiled : Except CompileError Plan} :
    c.compile? line = some compiled ↔
      (c.lexicon.read? line).isSome = true ∧ c.compile line = compiled := by
  unfold compile? compile Lexicon.lex
  cases c.lexicon.read? line <;> simp

theorem isSome_compile? : (c.compile? line).isSome = (c.lexicon.read? line).isSome :=
  Option.isSome_map

/-- What is done with the plan of a line is done exactly if the reading of the line ends. -/
theorem map_compile?_eq_some_iff {α : Type} {f : Except CompileError Plan → α} {result : α} :
    (c.compile? line).map f = some result ↔
      (c.lexicon.read? line).isSome = true ∧ f (c.compile line) = result := by
  simp only [Option.map_eq_some_iff, compile?_eq_some_iff]
  constructor
  · rintro ⟨_, ⟨hends, rfl⟩, hresult⟩
    exact ⟨hends, hresult⟩
  · rintro ⟨hends, hresult⟩
    exact ⟨_, ⟨hends, rfl⟩, hresult⟩

theorem evaluate?_eq_some_iff {outcome : Environment × Value} :
    c.evaluate? env line = some outcome ↔
      (c.lexicon.read? line).isSome = true ∧ c.evaluate env line = outcome :=
  map_compile?_eq_some_iff

theorem evaluateLine?_eq_some_iff {outcome : Environment × String} :
    c.evaluateLine? env line = some outcome ↔
      (c.lexicon.read? line).isSome = true ∧ c.evaluateLine env line = outcome :=
  map_compile?_eq_some_iff

theorem isSome_evaluate? : (c.evaluate? env line).isSome = (c.lexicon.read? line).isSome := by
  rw [evaluate?, Option.isSome_map, isSome_compile?]

theorem isSome_evaluateLine? :
    (c.evaluateLine? env line).isSome = (c.lexicon.read? line).isSome := by
  rw [evaluateLine?, Option.isSome_map, isSome_compile?]

/-- Showing the value of a line leaves the environment that evaluating it leaves. -/
theorem map_fst_evaluateLine? (c : Calculator) (env : Environment) (line : String) :
    (c.evaluateLine? env line).map Prod.fst = (c.evaluate? env line).map Prod.fst := by
  unfold evaluateLine? evaluate?
  cases c.compile? line <;> rfl

/-! ## One line after the other -/

theorem evaluateLines?_cons_eq_some_iff {rest : List String} {outcome : Environment × List String} :
    c.evaluateLines? env (line :: rest) = some outcome ↔
      ∃ next result, c.evaluateLine? env line = some (next, result) ∧
        ∃ after more, c.evaluateLines? next rest = some (after, more) ∧
          (after, result :: more) = outcome := by
  simp [evaluateLines?, Option.bind_eq_some_iff]

theorem evaluateLines?_eq_some_iff {outcome : Environment × List String} :
    c.evaluateLines? env lines = some outcome ↔
      (∀ line ∈ lines, (c.lexicon.read? line).isSome = true) ∧
        c.evaluateLines env lines = outcome := by
  -- induction on the lines: whether a line returns does not depend on what those before it leave
  induction lines generalizing env outcome with
  | nil => simp [evaluateLines?, evaluateLines]
  | cons line rest ih =>
    rw [evaluateLines?_cons_eq_some_iff, List.forall_mem_cons]
    simp only [evaluateLine?_eq_some_iff, ih]
    constructor
    · rintro ⟨next, result, ⟨hends, hline⟩, after, more, ⟨hrest, hlines⟩, rfl⟩
      refine ⟨⟨hends, hrest⟩, ?_⟩
      simp only [evaluateLines, hline, hlines]
    · rintro ⟨⟨hends, hrest⟩, houtcome⟩
      exact ⟨_, _, ⟨hends, rfl⟩, _, _, ⟨hrest, rfl⟩, houtcome⟩

theorem isSome_evaluateLines? :
    (c.evaluateLines? env lines).isSome = true ↔
      ∀ line ∈ lines, (c.lexicon.read? line).isSome = true := by
  simp only [Option.isSome_iff_exists, evaluateLines?_eq_some_iff, exists_and_left, exists_eq',
    and_true]

/-- What lines leave is what evaluating them one after the other leaves. -/
theorem map_fst_evaluateLines? (c : Calculator) (env : Environment) (lines : List String) :
    (c.evaluateLines? env lines).map Prod.fst =
      lines.foldlM (fun env line => (c.evaluate? env line).map Prod.fst) env := by
  induction lines generalizing env with
  | nil => rfl
  | cons line rest ih =>
    rw [List.foldlM_cons, ← map_fst_evaluateLine?, evaluateLines?]
    cases c.evaluateLine? env line with
    | none => rfl
    | some left =>
      simp only [Option.map_some, Option.bind_eq_bind, Option.bind_some, ← ih]
      cases c.evaluateLines? left.1 rest <;> rfl

/-! ## Where every call returns -/

theorem isSome_read?_of_signsNamed (hconfig : c.config.Built) (hsigns : SignsNamed c.config)
    (line : String) : (c.lexicon.read? line).isSome = true := by
  rw [c.lexicon_eq]
  exact Lexicon.isSome_read?_iff.2 (Lexicon.advances_of_signsNamed hconfig hsigns) line

theorem isSome_evaluateLines?_of_signsNamed (hconfig : c.config.Built)
    (hsigns : SignsNamed c.config) (env : Environment) (lines : List String) :
    (c.evaluateLines? env lines).isSome = true :=
  isSome_evaluateLines?.2 fun line _ => isSome_read?_of_signsNamed hconfig hsigns line

end Calculator

end LineCalc
