import LineCalc.Proofs.Reached
import LineCalc.Proofs.ReadBack
import LineCalc.Proofs.Words

/-!
# Reading variables

A line that assigns a name and does not fail leaves a value under the name, and the line of just the
name gives that value, unless the name belongs to the vocabulary. A word is assigned where a free
word stands before an assignment, and there even the name of a unit is free; alone it is read as the
unit.

* **`Lexicon.lex_text_of_mem`**: a free word of a line is read as a free word on its own.
* **`Machine.holds_of_steps`**: after a run every name that was assigned has a value.
* **`Calculator.compile_assignment`**, **`Calculator.evaluate_unitName`**: any word can be assigned,
  but that of a unit cannot be read.
* **`Calculator.evaluate_name`**: what is assigned can be read.
-/

namespace LineCalc

open Text

/-! ## Free words of a line -/

namespace Lexicon

variable {lx : Lexicon}

/-- A free word of a line that is no name is read as the same word where it stands alone. -/
theorem lex_text_of_mem {line : String} {tokens : List Token} (h : lx.lex line = .ok tokens)
    {t : Token} (ht : t ∈ tokens) (hkind : t.kind = .identifier)
    (hfree : lower t.text.toList ∉ lx.names) :
    ∃ position, lx.lex t.text = .ok [⟨.identifier, t.text, position⟩] := by
  obtain ⟨atStart, text, n, hnext, hword⟩ := exists_next?_of_mem_scan (lex_eq_ok.1 h) ht
  rw [hkind] at hnext
  rw [hword] at hfree
  have halone : lx.next? true t.text.toList = some (.identifier, t.text.toList.length) := by
    rw [hword]
    exact next?_take hnext hfree
  obtain ⟨c, rest, hcons, hc⟩ := exists_cons_of_identifier halone
  exact ⟨0, (lex_eq_single_iff ⟨c, rest, hcons, isBlank_of_isWordChar hc⟩).2 halone⟩

end Lexicon

/-! ## Running the plan -/

/-- A name has a value that can be read. -/
def Environment.Holds (env : Environment) (name : String) : Prop :=
  ∃ v, env.lookup? name = some v ∧ v.isStorable = true

namespace Machine

variable {units : Registry}

/-- An assignment that succeeds gives its name a value, and no step takes one away. -/
theorem holds_of_step {m after : Machine} {op : Opcode} (h : m.step units op = .ok after)
    {name : String} (hname : op = .assign name ∨ m.environment.Holds name) :
    after.environment.Holds name := by
  cases op with
  | number | date | time | unit | load =>
    cases h
    exact hname.resolve_left nofun
  | operator | call | aggregator =>
    obtain ⟨_, _, rfl⟩ := map_eq_ok.1 h
    exact hname.resolve_left nofun
  | assign assigned =>
    simp only [step] at h
    split at h
    · rename_i v rest _
      split at h <;> cases h
      rename_i hstorable
      by_cases hsame : assigned = name
      · exact ⟨v, by simp [hsame], hstorable⟩
      · -- another name is assigned, and this one keeps its value
        obtain ⟨w, hw, hstorable⟩ := hname.resolve_left (by simp [hsame])
        exact ⟨w, by simp [hsame, hw], hstorable⟩
    · cases h

theorem holds_of_steps {m : Machine} {plan : Plan} {after : Environment} {stack : List Value}
    (h : steps units m plan = (after, .ok stack)) {name : String}
    (hname : .assign name ∈ plan ∨ m.environment.Holds name) : after.Holds name := by
  induction plan generalizing m with
  | nil =>
    cases h
    exact hname.resolve_left List.not_mem_nil
  | cons op rest ih =>
    rw [steps] at h
    split at h
    · rename_i next hstep
      rcases hname with hmem | hholds
      · rcases List.mem_cons.1 hmem with heq | hmem
        · exact ih h (.inr (holds_of_step hstep (.inl heq.symm)))
        · exact ih h (.inl hmem)
      · exact ih h (.inr (holds_of_step hstep (.inr hholds)))
    · cases h

end Machine

/-! ## Words of the standard vocabulary -/

namespace Calculator

/-- Any word is assigned that has an assignment after it, even one that is a name. -/
theorem compile_assignment {name : String} (hnil : name.toList ≠ [])
    (hchars : ∀ c ∈ name.toList, Lexicon.isWordChar c = true) :
    (ofConfig .standard).compile (name ++ ": 5") = .ok [.number (.ofInt 5), .assign name] := by
  have hline : (name ++ ": 5").toList = name.toList ++ [':', ' ', '5'] := by
    simp [String.toList_append]
  have hmark : ':' ∈ Standard.assignments := List.mem_cons_self ..
  have hstart := Lexicon.startsWord_of_isWordChar hnil hchars
  obtain ⟨start, afterName, hname⟩ := Lexicon.scan_token hnil (hstart.trimStart_append _)
    (Standard.next?_of_assignment hmark hnil hchars [' ', '5'] true) 0
  obtain ⟨mark, afterMark, hassign⟩ := @Lexicon.scan_of_next? Standard.lexicon false
    [':', ' ', '5'] _ _ .assignment 0 rfl rfl afterName
  obtain ⟨number, afterNumber, hvalue⟩ := @Lexicon.scan_of_next? Standard.lexicon false
    [' ', '5'] _ _ .number 0 rfl (by decide +kernel) afterMark
  have hend : Standard.lexicon.scan afterNumber false [] = ([], none) := Lexicon.scan_of_blank rfl
  -- the parts are put together from the end of the line to its start
  rw [List.drop_zero, hend] at hvalue
  rw [List.drop_zero, hvalue] at hassign
  rw [hassign, String.ofList_toList, ← hline] at hname
  have hlex : Standard.lexicon.lex (name ++ ": 5") =
      .ok [⟨.identifier, name, start⟩, ⟨.assignment, ":", mark⟩, ⟨.number, "5", number⟩] :=
    Lexicon.lex_eq_ok.2 hname
  have hread : Config.standard.format.read "5" = .ok (.ofInt 5) :=
    toOption_eq_some.1 (by decide +kernel)
  have hplan : Plan.ofTokens .standard
      [⟨.identifier, name, start⟩, ⟨.assignment, ":", mark⟩, ⟨.number, "5", number⟩] =
      .ok [.number (.ofInt 5), .assign name] := by
    rw [Plan.ofTokens, run_assign rfl rfl]
    simp only [ParseState.run, ParseState.step, hread]
    rfl
  exact compile_eq_ok.2 ⟨_, hlex, hplan⟩

theorem evaluate_assignment {name line : String}
    (h : (ofConfig .standard).compile line = .ok [.number (.ofInt 5), .assign name]) :
    (ofConfig .standard).evaluate (.fresh default) line =
      (((Environment.fresh default).assign name (.plain (.ofInt 5))).record (.plain (.ofInt 5)),
        .plain (.ofInt 5)) := by
  rw [evaluate, h]
  rfl

/-- The line of a unit fails. -/
theorem evaluate_unitName {name : String} {u : MeasureUnit}
    (h : Config.standard.units.lookup name = some u) (env : Environment) :
    ((ofConfig .standard).evaluate env name).2 =
      .failed "a line cannot evaluate to a unit" := by
  obtain ⟨hlowers, hword, hmem⟩ := Standard.unitWord_of_lookup h
  have hlex := (Lexicon.lex_eq_single_iff (Standard.startsWord_of_unitWord hlowers hword)).2
    (Standard.next?_of_unitWord hlowers hword hmem)
  have hplan : Plan.ofTokens .standard [⟨.unit, name, 0⟩] = .ok [.unit u] := by
    simp only [Plan.ofTokens, ParseState.run, ParseState.step, h, Option.map_some]
    rfl
  have hcompile : (ofConfig .standard).compile name = .ok [.unit u] :=
    compile_eq_ok.2 ⟨_, hlex, hplan⟩
  rw [evaluate, hcompile]
  rfl

/-! ## The line of a name -/

variable {c : Calculator}

/-- After a line that does not fail every name that its plan assigns has a value. -/
theorem holds_of_assign_mem {env : Environment} {line name : String} {plan : Plan}
    (hplan : c.compile line = .ok plan) (hname : .assign name ∈ plan)
    (hvalue : ∀ message, (c.evaluate env line).2 ≠ .failed message) :
    (c.evaluate env line).1.Holds name := by
  have heval : c.evaluate env line = Machine.execute c.config.units env plan := by
    rw [evaluate, hplan]
    rfl
  rw [heval] at hvalue ⊢
  rcases hsteps : Machine.steps c.config.units ⟨env, []⟩ plan with ⟨after, outcome⟩
  cases outcome with
  | error e =>
    refine absurd ?_ (hvalue e.message)
    simp only [Machine.execute, Machine.run, hsteps]
    rfl
  | ok stack =>
    -- recording the value of the line changes no variable
    have hholds : after.Holds name := Machine.holds_of_steps hsteps (.inl hname)
    simp only [Machine.execute, Machine.run, hsteps]
    exact hholds

/-- The line of a name that is read as a free word gives the value that the name has. -/
theorem evaluate_of_lex {env : Environment} {name : String} {position : Nat} {v : Value}
    (hlex : c.lexicon.lex name = .ok [⟨.identifier, name, position⟩])
    (hlookup : env.lookup? name = some v) (hv : v.isStorable = true) :
    (c.evaluate env name).2 = v := by
  have hwritten : Written c.config (.load name) [⟨.identifier, name, position⟩] [] :=
    @Written.load _ ⟨.identifier, name, position⟩ rfl
  have hload : (Expression.load name).evaluate c.config.units env = (env, .ok v) := by
    rw [Expression.evaluate, hlookup, Option.getD_some]
  rw [evaluate_of_postorder (compile_of_written hlex hwritten)
    (Value.isResult_of_isStorable hv) hload]

/--
What is assigned can be read: after a line that does not fail, the line of a name that the plan
assigns gives the value kept under the name, unless the name is one of the vocabulary.
-/
theorem evaluate_name (c : Calculator) (env : Environment) {line name : String} {plan : Plan}
    (hplan : c.compile line = .ok plan) (hname : .assign name ∈ plan)
    (hvalue : ∀ message, (c.evaluate env line).2 ≠ .failed message)
    (hfree : lower name.toList ∉ c.lexicon.names) :
    ∃ v, (c.evaluate env line).1.lookup? name = some v ∧
      (c.evaluate (c.evaluate env line).1 name).2 = v := by
  obtain ⟨v, hlookup, hv⟩ := holds_of_assign_mem hplan hname hvalue
  refine ⟨v, hlookup, ?_⟩
  obtain ⟨tokens, hlex, htokens⟩ := compile_eq_ok.1 hplan
  obtain ⟨token, htoken, hkind, rfl⟩ := comesFrom_of_ofTokens htokens _ hname
  obtain ⟨position, halone⟩ := Lexicon.lex_text_of_mem hlex htoken hkind hfree
  exact evaluate_of_lex halone hlookup hv

/-- After `net_price: 5` the line `net_price` is 5. -/
theorem evaluate_name_price :
    (ofConfig .standard).compile "net_price: 5" =
        .ok [.number (.ofInt 5), .assign "net_price"] ∧
      lower "net_price".toList ∉ (ofConfig .standard).lexicon.names ∧
      ((ofConfig .standard).evaluate
        ((ofConfig .standard).evaluate (.fresh default) "net_price: 5").1 "net_price").2 =
        .plain (.ofInt 5) := by
  have hword : Standard.lexicon.FreeWord "net_price".toList :=
    Standard.freeWord_of_not_isUnitWord (by decide) (List.all_eq_true.1 (by decide +kernel))
      (by decide +kernel) (by decide +kernel)
  have hcompile : (ofConfig .standard).compile "net_price: 5" =
      .ok [.number (.ofInt 5), .assign "net_price"] :=
    compile_assignment hword.ne_nil hword.chars
  have hline := evaluate_assignment hcompile
  obtain ⟨v, hlookup, hvalue⟩ := evaluate_name (ofConfig .standard) (.fresh default)
    hcompile (by simp) (by simp [hline, Value.plain]) hword.free
  rw [hline, Environment.lookup?_record, Environment.lookup?_assign, if_pos rfl] at hlookup
  cases hlookup
  exact ⟨hcompile, hword.free, hvalue⟩

/-- What is assigned cannot always be read: after `cm: 5` the line `cm` fails. -/
theorem not_evaluate_name :
    ¬∀ (env : Environment) (line name : String) (plan : Plan), (ofConfig .standard).Reached env →
      (ofConfig .standard).compile line = .ok plan → .assign name ∈ plan →
      (∀ message, ((ofConfig .standard).evaluate env line).2 ≠ .failed message) →
      ∃ v, ((ofConfig .standard).evaluate env line).1.lookup? name = some v ∧
        ((ofConfig .standard).evaluate ((ofConfig .standard).evaluate env line).1 name).2 = v := by
  intro hreads
  have hcompile : (ofConfig .standard).compile "cm: 5" = .ok [.number (.ofInt 5), .assign "cm"] :=
    @compile_assignment "cm" (by decide) (List.all_eq_true.1 (by decide +kernel))
  have hline := evaluate_assignment hcompile
  obtain ⟨v, hlookup, hvalue⟩ := hreads (.fresh default) "cm: 5" "cm" _ (.fresh default)
    hcompile (by simp) (by simp [hline, Value.plain])
  have hunit : Config.standard.units.lookup "cm" = some Standard.lengths[1] := by
    rw [Standard.units_standard]
    exact Standard.registered_units.2 _ (by decide +kernel) _ (by decide +kernel)
  rw [evaluate_unitName hunit] at hvalue
  rw [hline, Environment.lookup?_record, Environment.lookup?_assign, if_pos rfl, ← hvalue] at hlookup
  cases hlookup

end Calculator

end LineCalc
