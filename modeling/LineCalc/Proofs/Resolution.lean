import LineCalc.Proofs.Brackets
import LineCalc.Proofs.Lexing
import LineCalc.Proofs.Lowercase
import LineCalc.Proofs.Names

/-!
# What names of a line resolve to

A line is read by the names of the vocabulary, and its plan is made by looking the same names up.
Names are taken to lowercase when they are registered, when the lexicon is put together, where they
are read and where they are looked up; all of these agree because a lowercase text is its own
lowercase. So whatever is read as a name is found.

* **`NameTable.KeyedBy`**: the entries of a table stand under their own names in lowercase.
* **`Lexicon.lower_mem_of_mem_lex`**: what is read as a name is one of the lexicon's in lowercase.
* **`ParseState.exists_unknown_of_run`**: an unknown name is reported only of such a one.
* **`named_of_lex`**: every name that is read stands for an entry that is registered under it, and
  none is reported as unknown.
-/

namespace LineCalc

open Text

/-! ## Tables keyed by name -/

namespace NameTable

variable {α : Type} {namesOf : α → List String}

/-- Every entry of the table stands under one of its own names in lowercase. -/
def KeyedBy (namesOf : α → List String) (t : NameTable α) : Prop :=
  ∀ key a, t.entries.find? key = some a → ∃ name ∈ namesOf a, lowercase name = key

theorem KeyedBy.empty : KeyedBy namesOf ({} : NameTable α) := by
  intro key a h
  cases h

theorem KeyedBy.insert {t : NameTable α} (h : t.KeyedBy namesOf) {name : String} {a : α}
    (hname : name ∈ namesOf a) : (t.insert name a).KeyedBy namesOf := by
  intro key b hfind
  rw [NameTable.insert, Assoc.find?_put] at hfind
  split at hfind
  · rename_i hkey
    cases hfind
    exact ⟨name, hname, hkey⟩
  · exact h key b hfind

/-- A text is found where its lowercase is one of the arranged names. -/
theorem KeyedBy.find?_of_mem_arrange {t : NameTable α} (h : t.KeyedBy namesOf) {text : String}
    (hmem : lower text.toList ∈ Lexicon.arrange t.names) :
    ∃ a, t.find? text = some a ∧ ∃ name ∈ namesOf a, lowercase name = lowercase text := by
  obtain ⟨key, hkey, hlower⟩ := Lexicon.mem_arrange.1 hmem
  obtain ⟨a, hfind⟩ := Assoc.mem_keys.1 hkey
  obtain ⟨name, hname, rfl⟩ := h key a hfind
  -- the key is a lowercase, so it is the name in the lexicon as it stands
  have htext : lowercase name = lowercase text := by
    rw [lowercase, String.toList_ofList, lower_lower] at hlower
    rw [lowercase, lowercase, hlower]
  refine ⟨a, ?_, name, hname, htext⟩
  rw [find?, ← htext]
  exact hfind

end NameTable

/-- The tables of a draft are keyed by the names of their entries. -/
structure Draft.Keyed (d : Draft) : Prop where
  binaryOperators : d.binaryOperators.KeyedBy fun op => [op.symbol]
  unaryOperators : d.unaryOperators.KeyedBy fun op => [op.symbol]
  functions : d.functions.KeyedBy fun f => [f.name]
  aggregators : d.aggregators.KeyedBy fun a => [a.name]

theorem Draft.Built.keyed {d : Draft} (h : d.Built) : d.Keyed := by
  induction h with
  | start => exact ⟨.empty, .empty, .empty, .empty⟩
  | unit _ hadd ih | group _ hadd ih =>
    obtain ⟨units, -, rfl⟩ := map_eq_ok.1 hadd
    exact { ih with }
  | operator _ op ih =>
    cases op with
    | unary op => exact { ih with unaryOperators := ih.unaryOperators.insert (by simp) }
    | binary op => exact { ih with binaryOperators := ih.binaryOperators.insert (by simp) }
  | function _ f ih => exact { ih with functions := ih.functions.insert (by simp) }
  | aggregator _ a ih => exact { ih with aggregators := ih.aggregators.insert (by simp) }
  | decimalSeparator _ _ ih | groupingSeparator _ _ ih => exact { ih with }

theorem Draft.Built.keyedUnits {d : Draft} (h : d.Built) :
    d.units.byName.KeyedBy MeasureUnit.names :=
  fun key u hfind => (h.consistent.named key u hfind).2

/-! ## What is read as a name -/

/-- The sorts of tokens that are names of the vocabulary. -/
def TokenKind.isName : TokenKind → Bool
  | .operator | .function | .aggregator | .unit => true
  | _ => false

namespace Lexicon

variable {lx : Lexicon}

/-- The names that are read as tokens of a kind. -/
def namesOf (lx : Lexicon) : TokenKind → List (List Char)
  | .operator => lx.operators
  | .function => lx.functions
  | .aggregator => lx.aggregators
  | .unit => lx.units
  | _ => []

theorem lower_mem_of_nameLength? {names : List (List Char)} {cs : List Char} {n : Nat}
    (h : lx.nameLength? names cs = some n) : lower (cs.take n) ∈ names := by
  obtain ⟨name, hfind, rfl⟩ := Option.map_eq_some_iff.1 h
  have hadmits := List.find?_some hfind
  simp only [admits, Bool.and_eq_true, beq_iff_eq] at hadmits
  rw [hadmits.1.2]
  exact List.mem_of_find?_eq_some hfind

/-- The text of a name is a name of its kind in lowercase, in whatever case it is written. -/
theorem lower_mem_of_mem_lex {line : String} {tokens : List Token}
    (h : lx.lex line = .ok tokens) {t : Token} (ht : t ∈ tokens) (hname : t.kind.isName = true) :
    lower t.text.toList ∈ lx.namesOf t.kind := by
  obtain ⟨atStart, text, n, hnext, htext⟩ := exists_next?_of_mem_scan (lex_eq_ok.1 h) ht
  rw [htext]
  generalize t.kind = kind at hname hnext
  cases recognized_of_next? hnext with
  | comment | date | time | number | word => cases hname
  | structural _ hkind =>
    rcases structureKind?_eq_some hkind with rfl | rfl | rfl | rfl <;> cases hname
  | operator hlength | function hlength | aggregator hlength | unit hlength =>
    exact lower_mem_of_nameLength? hlength

end Lexicon

/-! ## What is reported as unknown -/

/-- What is said about a name that is looked up and not found. -/
def ParseError.IsUnknownName : ParseError → Prop
  | .unknownOperator _ | .unknownUnit _ | .unknownAggregator _ | .unknownFunction _ => True
  | _ => False

/-- A name that is not in the vocabulary. -/
def Token.Unknown (config : Config) (t : Token) : Prop :=
  t.kind.isName = true ∧ ¬ t.Resolves config

namespace ParseState

variable {config : Config} {st : ParseState} {failure : ParseFailure}

theorem not_unknownName_of_close (h : st.close = .error failure) :
    ¬ failure.error.IsUnknownName := by
  unfold close at h
  (repeat' split at h) <;> cases h <;> exact id

theorem not_unknownName_of_separate (h : st.separate = .error failure) :
    ¬ failure.error.IsUnknownName := by
  unfold separate at h
  (repeat' split at h) <;> cases h <;> exact id

theorem not_unknownName_of_finish {st : ParseState} (h : st.finish = .error failure) :
    ¬ failure.error.IsUnknownName := by
  unfold finish at h
  split at h <;> cases h
  exact id

theorem operandOr_eq_error {α : Type} {found : Option α} {make : α → Opcode} {error : ParseError}
    (h : st.operandOr (found.map make) error = .error failure) :
    found = none ∧ failure.error = error := by
  cases found with
  | none =>
    cases h
    exact ⟨rfl, rfl⟩
  | some a => cases h

theorem resolve_eq_none {symbol : String} (h : st.resolve config symbol = none) :
    config.unaryOperators.find? symbol = none ∧ config.binaryOperators.find? symbol = none := by
  cases hexpect : st.expect <;> simpa [resolve, hexpect, and_comm] using h

/-- A token of which an unknown name is reported is a name, and it does not resolve. -/
theorem unknown_of_step {token : Token} (h : st.step config token = .error failure)
    (hunknown : failure.error.IsUnknownName) : token.Unknown config := by
  unfold step at h
  unfold Token.Unknown Token.Resolves
  cases hkind : token.kind <;> simp only [hkind] at h ⊢
  case comment | identifier | openParen => cases h
  case number =>
    split at h <;> cases h
    exact hunknown.elim
  case date | time =>
    rw [(operandOr_eq_error h).2] at hunknown
    exact hunknown.elim
  case unit | aggregator => simp [TokenKind.isName, (operandOr_eq_error h).1]
  case operator =>
    split at h
    · cases h
    · rename_i hnone
      simp [TokenKind.isName, resolve_eq_none hnone]
  case function =>
    split at h
    · cases h
      exact hunknown.elim
    · rename_i hnone
      simp [TokenKind.isName, hnone]
  case assignment =>
    cases h
    exact hunknown.elim
  case closeParen => exact absurd hunknown (not_unknownName_of_close h)
  case semicolon => exact absurd hunknown (not_unknownName_of_separate h)

/-- An unknown name is reported of a name that does not resolve. -/
theorem exists_unknown_of_run {tokens : List Token} (h : run config st tokens = .error failure)
    (hunknown : failure.error.IsUnknownName) : ∃ t ∈ tokens, t.Unknown config := by
  induction st, tokens using run.induct config with
  | case1 st => exact absurd hunknown (not_unknownName_of_finish h)
  | case2 st token =>
    cases hstep : st.step config token with
    | error failure' =>
      simp only [run, hstep, Except.bind] at h
      cases h
      exact ⟨token, by simp, unknown_of_step hstep hunknown⟩
    | ok next =>
      simp only [run, hstep, Except.bind] at h
      exact absurd hunknown (not_unknownName_of_finish h)
  | case3 st token next rest hassign ih =>
    rw [run, if_pos hassign] at h
    obtain ⟨t, ht, hfound⟩ := ih h
    exact ⟨t, by simp [ht], hfound⟩
  | case4 st token next rest hassign hcall function hfind ih =>
    simp only [run, if_neg hassign, if_pos hcall, hfind] at h
    obtain ⟨t, ht, hfound⟩ := ih h
    exact ⟨t, by simp [ht], hfound⟩
  | case5 st token next rest hassign hcall hfind =>
    refine ⟨token, by simp, ?_⟩
    simp [Token.Unknown, TokenKind.isName, Token.Resolves, hcall.1, hfind]
  | case6 st token next rest hassign hcall after hafter ih =>
    simp only [run, if_neg hassign, if_neg hcall, hafter] at h
    obtain ⟨t, ht, hfound⟩ := ih h
    exact ⟨t, List.mem_cons_of_mem _ ht, hfound⟩
  | case7 st token next rest hassign hcall failure' hfailure =>
    simp only [run, if_neg hassign, if_neg hcall, hfailure] at h
    cases h
    exact ⟨token, by simp, unknown_of_step hfailure hunknown⟩

end ParseState

/-! ## Lines and vocabularies -/

/--
The entry of the vocabulary that a token stands for, if it is a name: what is looked up by its text,
whatever has been read before it, is an entry with a name that is the same in lowercase.
-/
def Token.Named (config : Config) (t : Token) : Prop :=
  match t.kind with
  | .operator => ∀ st : ParseState, ∃ op, st.resolve config t.text = some op ∧
      lowercase op.symbol = lowercase t.text
  | .unit => ∃ u ∈ config.units.units, config.units.lookup t.text = some u ∧
      ∃ name ∈ u.names, lowercase name = lowercase t.text
  | .function => ∃ f, config.functions.find? t.text = some f ∧ lowercase f.name = lowercase t.text
  | .aggregator => ∃ a, config.aggregators.find? t.text = some a ∧
      lowercase a.name = lowercase t.text
  | _ => True

/-- The symbols of operators are those of the two tables. -/
theorem mem_operators_ofConfig {config : Config} {name : List Char}
    (h : name ∈ (Lexicon.ofConfig config).operators) :
    name ∈ Lexicon.arrange config.unaryOperators.names ∨
      name ∈ Lexicon.arrange config.binaryOperators.names := by
  obtain ⟨key, hkey, hlower⟩ := Lexicon.mem_arrange.1 h
  rw [Draft.operatorSymbols, mem_dropRepeats, mem_sortNames, List.mem_append] at hkey
  rcases hkey with hbinary | hunary
  · exact .inr (Lexicon.mem_arrange.2 ⟨key, hbinary, hlower⟩)
  · exact .inl (Lexicon.mem_arrange.2 ⟨key, hunary, hlower⟩)

/-- An operator that is looked up stands before an operand or between operands. -/
theorem ParseState.exists_of_resolve {config : Config} {st : ParseState} {symbol : String}
    {op : Operator} (h : st.resolve config symbol = some op) :
    (∃ found, config.unaryOperators.find? symbol = some found ∧ op = .unary found) ∨
      ∃ found, config.binaryOperators.find? symbol = some found ∧ op = .binary found := by
  unfold resolve at h
  cases hunary : config.unaryOperators.find? symbol <;>
    cases hbinary : config.binaryOperators.find? symbol <;> cases hexpect : st.expect <;>
      simp_all

/-- In a vocabulary that is put together, every name of a line stands for its entry. -/
theorem named_of_mem_lex {config : Config} (hbuilt : config.toDraft.Built) {line : String}
    {tokens : List Token} (h : (Lexicon.ofConfig config).lex line = .ok tokens) :
    ∀ t ∈ tokens, t.Named config := by
  intro t ht
  have hkeyed := hbuilt.keyed
  have hread := Lexicon.lower_mem_of_mem_lex h ht
  unfold Token.Named
  cases hkind : t.kind <;> rw [hkind] at hread <;> simp only
  case operator =>
    intro st
    cases hresolve : st.resolve config t.text with
    | none =>
      -- the symbol is in one of the tables, so it is found
      obtain ⟨hunary, hbinary⟩ := ParseState.resolve_eq_none hresolve
      rcases mem_operators_ofConfig (hread rfl) with hmem | hmem
      · obtain ⟨op, hfind, -⟩ := hkeyed.unaryOperators.find?_of_mem_arrange hmem
        rw [hunary] at hfind
        cases hfind
      · obtain ⟨op, hfind, -⟩ := hkeyed.binaryOperators.find?_of_mem_arrange hmem
        rw [hbinary] at hfind
        cases hfind
    | some op =>
      refine ⟨op, rfl, ?_⟩
      rcases ParseState.exists_of_resolve hresolve with ⟨found, hfind, rfl⟩ | ⟨found, hfind, rfl⟩
      · simpa [Operator.symbol] using hkeyed.unaryOperators _ found hfind
      · simpa [Operator.symbol] using hkeyed.binaryOperators _ found hfind
  case function => simpa using hkeyed.functions.find?_of_mem_arrange (hread rfl)
  case aggregator => simpa using hkeyed.aggregators.find?_of_mem_arrange (hread rfl)
  case unit =>
    have hmem : lower t.text.toList ∈ Lexicon.arrange config.units.byName.names := by
      obtain ⟨key, u, hfind, hlower⟩ := Lexicon.mem_units_ofConfig.1 (hread rfl)
      exact Lexicon.mem_arrange.2 ⟨key, Assoc.mem_keys.2 ⟨u, hfind⟩, hlower⟩
    obtain ⟨u, hfind, hname⟩ := hbuilt.keyedUnits.find?_of_mem_arrange hmem
    exact ⟨u, hbuilt.consistent.lookup_mem t.text u hfind, hfind, hname⟩

/-- A name that stands for an entry is not unknown. -/
theorem Token.Named.resolves {config : Config} {t : Token} (h : t.Named config)
    (hname : t.kind.isName = true) : t.Resolves config := by
  unfold Token.Named at h
  unfold Token.Resolves
  cases hkind : t.kind <;> rw [hkind] at hname <;> try cases hname
  all_goals simp only [hkind] at h ⊢
  case operator =>
    obtain ⟨op, hresolve, -⟩ := h {}
    rcases ParseState.exists_of_resolve hresolve with ⟨found, hfind, -⟩ | ⟨found, hfind, -⟩
    · exact .inl ⟨found, hfind⟩
    · exact .inr ⟨found, hfind⟩
  case function | aggregator =>
    obtain ⟨found, hfind, -⟩ := h
    exact ⟨found, hfind⟩
  case unit =>
    obtain ⟨u, -, hfind, -⟩ := h
    exact ⟨u, hfind⟩

/--
In a vocabulary that is put together, every name that is read of a line stands for its entry,
whatever case it is written in, and none is reported as unknown when the plan is made.
-/
theorem named_of_lex {config : Config} (hbuilt : config.toDraft.Built) {line : String}
    {tokens : List Token} (h : (Lexicon.ofConfig config).lex line = .ok tokens) :
    (∀ t ∈ tokens, t.Named config) ∧
      ∀ failure, Plan.ofTokens config tokens = .error failure →
        ¬ failure.error.IsUnknownName := by
  have hnamed := named_of_mem_lex hbuilt h
  refine ⟨hnamed, fun failure hfailure hunknown => ?_⟩
  obtain ⟨t, ht, hname, hresolves⟩ := ParseState.exists_unknown_of_run hfailure hunknown
  exact hresolves ((hnamed t ht).resolves hname)

/-- A vocabulary of one function, with a sigma at the start and at the end of its name. -/
def sigmas : Config where
  toDraft := Draft.addFunction {} ⟨"ΣΑΣ", .round .floor⟩
  acceptable := by decide

/-- The function is read and found with a final sigma at its end, beside a unit in capitals. -/
theorem named_of_lex_sigmas :
    sigmas.toDraft.Built ∧
      (Lexicon.ofConfig sigmas).lex "Σας(5 PERCENT)" = .ok [⟨.function, "Σας", 0⟩,
        ⟨.openParen, "(", 6⟩, ⟨.number, "5", 7⟩, ⟨.unit, "PERCENT", 9⟩, ⟨.closeParen, ")", 16⟩] ∧
      Token.Named sigmas ⟨.function, "Σας", 0⟩ ∧ Token.Named sigmas ⟨.unit, "PERCENT", 9⟩ := by
  have hbuilt : sigmas.toDraft.Built := Draft.Built.function .start _
  have hlex : (Lexicon.ofConfig sigmas).lex "Σας(5 PERCENT)" = .ok [⟨.function, "Σας", 0⟩,
      ⟨.openParen, "(", 6⟩, ⟨.number, "5", 7⟩, ⟨.unit, "PERCENT", 9⟩,
      ⟨.closeParen, ")", 16⟩] := by
    exact Lexicon.lex_eq_ok.2 (by decide +kernel)
  obtain ⟨hnamed, -⟩ := named_of_lex hbuilt hlex
  exact ⟨hbuilt, hlex, hnamed _ (by simp), hnamed _ (by simp)⟩

end LineCalc
