import LineCalc.Proofs.Words
import Mathlib.Order.Bounds.Defs
import Mathlib.Order.MinMax

/-!
# The longest name is read

Which token a text starts with can be told from the tables of a configuration, without the order in
which the lexicon keeps their names. Where nothing else stands, the first class that has a name
there decides, and of its names the longest one is read; a free word is read only where no name of
any class stands.

* **`Admissible`**: what it is for a name to stand at the start of a text.
* **`StartsUnnamed`**: what is recognized before any name.
* **`nameLength?_eq_some_iff`**: the name that is found is the longest one.
* **`next?_eq_name_iff`**: a token of a class is the longest name of the first class that has one.
* **`next?_longest_name`**: this for every class, and for free words.
-/

namespace LineCalc

open Text

/-! ## What stands at the start of a text -/

/-- The classes of names. -/
inductive NameClass where
  | operator
  | function
  | aggregator
  | unit
  deriving DecidableEq

namespace NameClass

/-- The place of a class among those that are tried. -/
def rank : NameClass → Nat
  | operator => 0
  | function => 1
  | aggregator => 2
  | unit => 3

def kind : NameClass → TokenKind
  | operator => .operator
  | function => .function
  | aggregator => .aggregator
  | unit => .unit

/-- The names of a class in the tables of a configuration. -/
def table (config : Config) : NameClass → List String
  | operator => config.operatorSymbols
  | function => config.functions.names
  | aggregator => config.aggregators.names
  | unit => config.units.names

/-- The names of a class in a lexicon. -/
def ofLexicon (lx : Lexicon) : NameClass → List (List Char)
  | operator => lx.operators
  | function => lx.functions
  | aggregator => lx.aggregators
  | unit => lx.units

theorem forall_iff {p : NameClass → Prop} :
    (∀ C, p C) ↔ p operator ∧ p function ∧ p aggregator ∧ p unit := by
  constructor
  · intro h
    exact ⟨h operator, h function, h aggregator, h unit⟩
  · rintro ⟨hoperator, hfunction, haggregator, hunit⟩ C
    cases C <;> assumption

end NameClass

/-- Where a word may end: at white space, at a bracket or separator, at a sign of an operator. -/
def EndsWord (config : Config) (c : Char) : Prop :=
  isBlank c = true ∨ c ∈ ['(', ')', ';'] ∨
    (isAlphanumeric c = false ∧ ∃ symbol ∈ config.operatorSymbols, c ∈ symbol.toList)

/--
A name of a class stands at the start of a text: it is the lowercase of as many characters as it
has, and if it is made of letters only, the text ends or a word may end after them.
-/
structure Admissible (config : Config) (cs : List Char) (C : NameClass) (name : List Char) :
    Prop where
  named : ∃ key ∈ C.table config, lower key.toList = name
  fits : name.length ≤ cs.length
  spelled : lower (cs.take name.length) = name
  ended : (∀ c ∈ name, isAlphabetic c = true) →
    ∀ c ∈ (cs.drop name.length).head?, EndsWord config c

/-- A run of so many digits. -/
def IsDigits (count : Nat) (run : List Char) : Prop :=
  run.length = count ∧ ∀ c ∈ run, isDigit c = true

theorem IsDigits.not_head? {count : Nat} {run rest : List Char} (h : IsDigits (count + 1) run)
    (hhead : ∀ c ∈ (run ++ rest).head?, isDigit c = false) : False := by
  obtain ⟨hlength, hdigits⟩ := h
  cases run with
  | nil => cases hlength
  | cons c run =>
    have hc := hdigits c (List.mem_cons_self ..)
    rw [hhead c rfl] at hc
    cases hc

/-- What is recognized before any name: a comment, the structure of a line, or a literal. -/
inductive StartsUnnamed (config : Config) (atStart : Bool) : List Char → Prop where
  | comment {rest : List Char} (hstart : atStart = true) :
      StartsUnnamed config atStart ('#' :: rest)
  | structural {c : Char} {rest : List Char} (hc : c ∈ [':', '=', '(', ')', ';']) :
      StartsUnnamed config atStart (c :: rest)
  | date {year month day rest : List Char} (hyear : IsDigits 4 year) (hmonth : IsDigits 2 month)
      (hday : IsDigits 2 day) :
      StartsUnnamed config atStart (year ++ '-' :: (month ++ '-' :: (day ++ rest)))
  | time {hour minute rest : List Char} (hhour : IsDigits 1 hour ∨ IsDigits 2 hour)
      (hminute : IsDigits 2 minute) :
      StartsUnnamed config atStart (hour ++ ':' :: (minute ++ rest))
  | number {c : Char} {rest : List Char} (hc : isDigit c = true) :
      StartsUnnamed config atStart (c :: rest)
  | fraction {c : Char} {rest : List Char} (hc : isDigit c = true) :
      StartsUnnamed config atStart (config.format.decimalSeparator :: c :: rest)

/-- A text starts with no comment, structure or literal if its first character allows for none. -/
theorem not_startsUnnamed {config : Config} {atStart : Bool} {c : Char} {rest : List Char}
    (hdigit : isDigit c = false) (hcomment : atStart = true → c ≠ '#')
    (hstructure : c ∉ [':', '=', '(', ')', ';'])
    (hfraction : c = config.format.decimalSeparator → ∀ d ∈ rest.head?, isDigit d = false) :
    ¬StartsUnnamed config atStart (c :: rest) := by
  have hhead : ∀ {run more : List Char}, c :: rest = run ++ more →
      ∀ d ∈ (run ++ more).head?, isDigit d = false := by
    intro run more heq d hd
    rw [← heq] at hd
    cases hd
    exact hdigit
  intro hstarts
  generalize htext : c :: rest = text at hstarts
  cases hstarts with
  | comment hstart =>
    cases htext
    exact hcomment hstart rfl
  | structural hc =>
    cases htext
    exact hstructure hc
  | date hyear => exact hyear.not_head? (hhead htext)
  | time hhour =>
    rcases hhour with hhour | hhour
    · exact hhour.not_head? (hhead htext)
    · exact hhour.not_head? (hhead htext)
  | number hc =>
    cases htext
    rw [hdigit] at hc
    cases hc
  | fraction hd =>
    cases htext
    rw [hfraction rfl _ rfl] at hd
    cases hd

namespace Lexicon

variable {config : Config} {lx : Lexicon} {cs : List Char} {atStart : Bool} {n : Nat}

/-! ## The order of names -/

theorem notAfter_total (a b : List Char) : notAfter a b = true ∨ notAfter b a = true := by
  induction a generalizing b with
  | nil => exact .inl rfl
  | cons x a ih =>
    cases b with
    | nil => exact .inr rfl
    | cons y b =>
      simp only [notAfter, Bool.or_eq_true, Bool.and_eq_true, decide_eq_true_eq, beq_iff_eq]
      rcases Nat.lt_trichotomy x.toNat y.toNat with hlt | heq | hgt
      · exact .inl (.inl hlt)
      · obtain rfl : x = y := Char.toNat_inj.1 heq
        exact (ih b).imp (fun h => .inr ⟨rfl, h⟩) fun h => .inr ⟨rfl, h⟩
      · exact .inr (.inl hgt)

theorem notAfter_trans {a b c : List Char} (hab : notAfter a b = true) (hbc : notAfter b c = true) :
    notAfter a c = true := by
  induction a generalizing b c with
  | nil => rfl
  | cons x a ih =>
    cases b with
    | nil => cases hab
    | cons y b =>
      cases c with
      | nil => cases hbc
      | cons z c =>
        simp only [notAfter, Bool.or_eq_true, Bool.and_eq_true, decide_eq_true_eq,
          beq_iff_eq] at hab hbc ⊢
        rcases hab with hxy | ⟨rfl, hab⟩ <;> rcases hbc with hyz | ⟨rfl, hbc⟩
        · exact .inl (hxy.trans hyz)
        · exact .inl hxy
        · exact .inl hyz
        · exact .inr ⟨rfl, ih hab hbc⟩

theorem longestFirst_iff {a b : List Char} :
    longestFirst a b = true ↔ b.length < a.length ∨ a.length = b.length ∧ notAfter a b = true := by
  simp [longestFirst]

theorem longestFirst_trans {a b c : List Char} (hab : longestFirst a b = true)
    (hbc : longestFirst b c = true) : longestFirst a c = true := by
  rw [longestFirst_iff] at hab hbc ⊢
  rcases hab with hab | ⟨hab, hafter⟩ <;> rcases hbc with hbc | ⟨hbc, hlater⟩
  · exact .inl (hbc.trans hab)
  · exact .inl (hbc ▸ hab)
  · exact .inl (hab ▸ hbc)
  · exact .inr ⟨hab.trans hbc, notAfter_trans hafter hlater⟩

theorem longestFirst_total (a b : List Char) :
    longestFirst a b = true ∨ longestFirst b a = true := by
  rw [longestFirst_iff, longestFirst_iff]
  rcases Nat.lt_trichotomy a.length b.length with hlt | heq | hgt
  · exact .inr (.inl hlt)
  · exact (notAfter_total a b).imp (fun h => .inr ⟨heq, h⟩) fun h => .inr ⟨heq.symm, h⟩
  · exact .inl (.inl hgt)

theorem sorted_longestFirst (names : List (List Char)) :
    (sorted longestFirst names).Pairwise fun a b => longestFirst a b = true :=
  @sorted_pairwise _ longestFirst (fun _ _ _ => longestFirst_trans) longestFirst_total names

theorem arrange_longestFirst (names : List String) :
    (arrange names).Pairwise fun a b => longestFirst a b = true :=
  (sorted_longestFirst _).sublist (dropRepeats_sublist _ _)

/-- In the order of a lexicon no name comes before a longer one. -/
theorem pairwise_arrange (names : List String) :
    (arrange names).Pairwise fun a b => b.length ≤ a.length := by
  refine (arrange_longestFirst names).imp ?_
  intro a b hab
  rcases longestFirst_iff.1 hab with hlonger | ⟨hequal, -⟩ <;> omega

/-- Of names none of which comes before a longer one, the one that is found is the longest. -/
theorem length_le_of_find? {names : List (List Char)}
    (hnames : names.Pairwise fun a b => b.length ≤ a.length) {first name : List Char}
    (hfirst : names.find? (lx.admits cs) = some first) (hname : name ∈ names)
    (hadmits : lx.admits cs name = true) : name.length ≤ first.length := by
  obtain ⟨-, before, after, rfl, hbefore⟩ := List.find?_eq_some_iff_append.1 hfirst
  -- what comes before the first one does not stand there, and what comes after it is no longer
  rcases List.mem_append.1 hname with hearlier | hlater
  · have hrejected := hbefore name hearlier
    rw [hadmits] at hrejected
    cases hrejected
  · rcases List.mem_cons.1 hlater with rfl | hlater
    · exact le_rfl
    · exact (List.pairwise_cons.1 (List.pairwise_append.1 hnames).2.1).1 name hlater

theorem nameLength?_eq_some_iff {names : List (List Char)}
    (hnames : names.Pairwise fun a b => b.length ≤ a.length) :
    lx.nameLength? names cs = some n ↔
      IsGreatest {m | ∃ name ∈ names, lx.admits cs name = true ∧ name.length = m} n := by
  constructor
  · intro h
    obtain ⟨first, hfirst, rfl⟩ := Option.map_eq_some_iff.1 h
    refine ⟨⟨first, List.mem_of_find?_eq_some hfirst, List.find?_some hfirst, rfl⟩, ?_⟩
    rintro _ ⟨name, hname, hadmits, rfl⟩
    exact length_le_of_find? hnames hfirst hname hadmits
  · rintro ⟨⟨name, hname, hadmits, rfl⟩, hgreatest⟩
    cases hfound : lx.nameLength? names cs with
    | none =>
      rw [nameLength?_eq_none_iff.1 hfound name hname] at hadmits
      cases hadmits
    | some m =>
      obtain ⟨first, hfirst, rfl⟩ := Option.map_eq_some_iff.1 hfound
      have hle : first.length ≤ name.length :=
        hgreatest ⟨first, List.mem_of_find?_eq_some hfirst, List.find?_some hfirst, rfl⟩
      rw [Nat.le_antisymm hle (length_le_of_find? hnames hfirst hname hadmits)]

/-! ## Names of a configuration -/

theorem isBoundary_ofConfig {rest : List Char} :
    (ofConfig config).isBoundary rest = true ↔ ∀ c ∈ rest.head?, EndsWord config c := by
  cases rest with
  | nil => simp [isBoundary]
  | cons c rest =>
    simp only [isBoundary, ofConfig, endsWord, EndsWord, Bool.or_eq_true, List.contains_iff_mem,
      List.mem_cons, List.mem_filter, List.mem_flatMap, Bool.and_eq_true, Bool.not_eq_true',
      List.head?_cons, Option.mem_some_iff, forall_eq', List.not_mem_nil, or_false]
    -- white space ends a word anyway, whether a symbol holds it or not
    cases isBlank c <;> tauto

theorem admits_ofConfig {name : List Char} :
    (ofConfig config).admits cs name = true ↔
      name.length ≤ cs.length ∧ lower (cs.take name.length) = name ∧
        ((∀ c ∈ name, isAlphabetic c = true) →
          ∀ c ∈ (cs.drop name.length).head?, EndsWord config c) := by
  simp only [admits, Bool.and_eq_true, Bool.or_eq_true, beq_iff_eq, isBoundary_ofConfig,
    Bool.not_eq_true', Bool.eq_false_iff, ne_eq, List.all_eq_true, List.length_take,
    min_eq_left_iff, ← imp_iff_not_or, and_assoc]

theorem ofLexicon_ofConfig (C : NameClass) :
    C.ofLexicon (ofConfig config) = arrange (C.table config) := by
  cases C <;> rfl

theorem admissible_iff {C : NameClass} {name : List Char} :
    Admissible config cs C name ↔
      name ∈ C.ofLexicon (ofConfig config) ∧ (ofConfig config).admits cs name = true := by
  rw [ofLexicon_ofConfig, mem_arrange, admits_ofConfig]
  constructor
  · intro h
    exact ⟨h.named, h.fits, h.spelled, h.ended⟩
  · rintro ⟨hnamed, hfits, hspelled, hended⟩
    exact ⟨hnamed, hfits, hspelled, hended⟩

theorem nameLength?_ofConfig_eq_none_iff {C : NameClass} :
    (ofConfig config).nameLength? (C.ofLexicon (ofConfig config)) cs = none ↔
      ∀ name, ¬Admissible config cs C name := by
  simp only [nameLength?_eq_none_iff, admissible_iff, not_and, Bool.not_eq_true]

theorem nameLength?_ofConfig_eq_some_iff {C : NameClass} :
    (ofConfig config).nameLength? (C.ofLexicon (ofConfig config)) cs = some n ↔
      IsGreatest {m | ∃ name, Admissible config cs C name ∧ name.length = m} n := by
  rw [nameLength?_eq_some_iff (by rw [ofLexicon_ofConfig]; exact pairwise_arrange _)]
  simp only [admissible_iff, and_assoc]

/-! ## What is recognized before any name -/

theorem numberLength?_eq_none_iff {separator : Char} :
    numberLength? separator cs = none ↔
      (∀ c ∈ cs.head?, isDigit c = false) ∧
        ∀ c rest, cs = separator :: c :: rest → isDigit c = false := by
  cases cs with
  | nil => simp [numberLength?, digitCount, fractionLength]
  | cons c rest =>
    by_cases hc : isDigit c = true
    · simp [numberLength?, digitCount, hc]
    · rw [Bool.not_eq_true] at hc
      cases rest with
      | nil => simp [numberLength?, digitCount, fractionLength, hc]
      | cons d rest =>
        by_cases hd : isDigit d = true <;>
          simp [numberLength?, digitCount, fractionLength, hc, hd]

theorem isDigit_of_hasShape {tests : List (Char → Bool)}
    (h : hasShape (isDigit :: tests) cs = true) :
    ∃ c ∈ cs.head?, isDigit c = true := by
  cases cs with
  | nil => cases h
  | cons c rest =>
    simp only [hasShape, Bool.and_eq_true] at h
    exact ⟨c, rfl, h.1⟩

/-- What the recognizers find that are tried before the names. -/
def unnamed? (lx : Lexicon) (atStart : Bool) (cs : List Char) : Option (TokenKind × Nat) :=
  ((lx.recognizers atStart).take 5).findSome? (· cs)

theorem structureKind?_eq_none_iff {c : Char} :
    structureKind? c = none ↔ c ∉ [':', '=', '(', ')', ';'] := by
  unfold structureKind?
  (repeat' split) <;> simp only [reduceCtorEq, List.mem_cons, List.not_mem_nil, or_false, false_iff,
    true_iff, not_not] <;> tauto

theorem unnamed?_eq_none_iff :
    (ofConfig config).unnamed? atStart cs = none ↔ ¬StartsUnnamed config atStart cs := by
  have hnone : (ofConfig config).unnamed? atStart cs = none ↔
      comment? atStart cs = none ∧ structure? cs = none ∧ dateLength? cs = none ∧
        timeLength? cs = none ∧ numberLength? config.format.decimalSeparator cs = none := by
    simp [unnamed?, recognizers, ofConfig]
  rw [hnone, numberLength?_eq_none_iff]
  constructor
  · rintro ⟨hcomment, hstructure, hdate, htime, hdigit, hfraction⟩ hstarts
    cases hstarts with
    | comment hstart => simp [comment?, hstart] at hcomment
    | structural hc => exact structureKind?_eq_none_iff.1 (Option.map_eq_none_iff.1 hstructure) hc
    | date hyear => exact hyear.not_head? hdigit
    | time hhour =>
      rcases hhour with hhour | hhour
      · exact hhour.not_head? hdigit
      · exact hhour.not_head? hdigit
    | number hc => simp [hdigit _ rfl] at hc
    | fraction hc => simp [hfraction _ _ rfl] at hc
  · intro hstarts
    -- dates, times and numbers start with digits, and so does what follows a separator
    have hdigit : ∀ c ∈ cs.head?, isDigit c = false := by
      intro c hc
      obtain ⟨rest, rfl⟩ := List.head?_eq_some_iff.1 hc
      exact Bool.eq_false_iff.2 fun hc => hstarts (.number hc)
    have hfraction : ∀ c rest, cs = config.format.decimalSeparator :: c :: rest →
        isDigit c = false := by
      rintro c rest rfl
      exact Bool.eq_false_iff.2 fun hc => hstarts (.fraction hc)
    have hshape : ∀ tests, hasShape (isDigit :: tests) cs = false := by
      intro tests
      rw [Bool.eq_false_iff]
      intro h
      obtain ⟨c, hc, hfound⟩ := isDigit_of_hasShape h
      rw [hdigit c hc] at hfound
      cases hfound
    refine ⟨?_, ?_, ?_, ?_, hdigit, hfraction⟩
    · cases cs with
      | nil => rfl
      | cons c rest =>
        rw [comment?, if_neg]
        intro h
        obtain ⟨hstart, hc⟩ := Bool.and_eq_true_iff.1 h
        exact hstarts (beq_iff_eq.1 hc ▸ .comment hstart)
    · cases cs with
      | nil => rfl
      | cons c rest =>
        rw [structure?, structureKind?_eq_none_iff.2 fun hc => hstarts (.structural hc)]
        rfl
    · rw [dateLength?, hshape]
      rfl
    · rw [timeLength?, hshape, hshape]
      rfl

/-! ## The first class that has a name -/

theorem findSome?_cons_eq_or {α β : Type} (f : α → Option β) (a : α) (l : List α) :
    (a :: l).findSome? f = (f a).or (l.findSome? f) := by
  rw [List.findSome?_cons]
  cases f a <;> rfl

theorem next?_eq_or :
    lx.next? atStart cs = (lx.unnamed? atStart cs).or
      (((lx.nameLength? lx.operators cs).map (.operator, ·)).or
        (((lx.nameLength? lx.functions cs).map (.function, ·)).or
          (((lx.nameLength? lx.aggregators cs).map (.aggregator, ·)).or
            (((lx.nameLength? lx.units cs).map (.unit, ·)).or
              ((wordLength? cs).map (.identifier, ·)))))) := by
  rw [next?, ← List.take_append_drop 5 (lx.recognizers atStart), List.findSome?_append, ← unnamed?]
  simp only [recognizers, List.drop_succ_cons, List.drop_zero, findSome?_cons_eq_or,
    List.findSome?_nil, Option.or_none]

theorem kind_of_unnamed? {kind : TokenKind} (h : lx.unnamed? atStart cs = some (kind, n)) :
    kind ≠ .identifier ∧ ∀ C : NameClass, kind ≠ C.kind := by
  rw [NameClass.forall_iff]
  obtain ⟨recognizer, hmem, hfound⟩ := List.exists_of_findSome?_eq_some h
  simp only [recognizers, List.take_succ_cons, List.take_zero, List.mem_cons, List.not_mem_nil,
    or_false] at hmem
  rcases hmem with rfl | rfl | rfl | rfl | rfl
  case _ =>
    cases cs with
    | nil => cases hfound
    | cons c rest =>
      simp only [comment?] at hfound
      split at hfound <;> cases hfound
      decide
  case _ =>
    cases cs with
    | nil => cases hfound
    | cons c rest =>
      obtain ⟨_, hkind, heq⟩ := Option.map_eq_some_iff.1 hfound
      cases heq
      rcases structureKind?_eq_some hkind with rfl | rfl | rfl | rfl <;> decide
  all_goals
    obtain ⟨_, _, heq⟩ := Option.map_eq_some_iff.1 hfound
    cases heq
    decide

/-- A name of a class is read where nothing is recognized before it and no earlier class has one. -/
theorem next?_eq_name_iff {C : NameClass} :
    lx.next? atStart cs = some (C.kind, n) ↔
      lx.unnamed? atStart cs = none ∧
        (∀ earlier : NameClass, earlier.rank < C.rank →
          lx.nameLength? (earlier.ofLexicon lx) cs = none) ∧
        lx.nameLength? (C.ofLexicon lx) cs = some n := by
  have hkind : lx.unnamed? atStart cs ≠ some (C.kind, n) :=
    fun h => (kind_of_unnamed? h).2 C rfl
  rw [next?_eq_or, NameClass.forall_iff, Option.or_eq_some_iff, or_iff_right hkind]
  cases C <;>
    simp [NameClass.kind, NameClass.rank, NameClass.ofLexicon, Option.or_eq_some_iff, and_assoc]

theorem next?_eq_word_iff :
    lx.next? atStart cs = some (.identifier, n) ↔
      lx.unnamed? atStart cs = none ∧
        (∀ C : NameClass, lx.nameLength? (C.ofLexicon lx) cs = none) ∧
        wordLength? cs = some n := by
  have hkind : lx.unnamed? atStart cs ≠ some (.identifier, n) :=
    fun h => (kind_of_unnamed? h).1 rfl
  rw [next?_eq_or, NameClass.forall_iff, Option.or_eq_some_iff, or_iff_right hkind]
  simp [NameClass.ofLexicon, Option.or_eq_some_iff, and_assoc]

/--
For every class of names and for free words: a text starts with a token of a class when nothing is
recognized before the names, no class that is tried before has a name there, and the token is as
long as the longest name of the class that stands there. It starts with a free word only where no
name of any class stands.
-/
theorem next?_longest_name (config : Config) (atStart : Bool) (cs : List Char) (n : Nat) :
    (∀ C : NameClass, (ofConfig config).next? atStart cs = some (C.kind, n) ↔
      ¬StartsUnnamed config atStart cs ∧
        (∀ earlier : NameClass, earlier.rank < C.rank →
          ∀ name, ¬Admissible config cs earlier name) ∧
        IsGreatest {m | ∃ name, Admissible config cs C name ∧ name.length = m} n) ∧
      ((ofConfig config).next? atStart cs = some (.identifier, n) ↔
        ¬StartsUnnamed config atStart cs ∧ (∀ C name, ¬Admissible config cs C name) ∧
          wordLength? cs = some n) := by
  simp only [next?_eq_name_iff, next?_eq_word_iff, unnamed?_eq_none_iff,
    nameLength?_ofConfig_eq_none_iff, nameLength?_ofConfig_eq_some_iff, implies_true, and_self]

end Lexicon

end LineCalc
