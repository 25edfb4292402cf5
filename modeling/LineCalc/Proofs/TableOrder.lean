import LineCalc.Proofs.Progress

/-!
# The order of tables does not matter

The names of a vocabulary may be listed in any order and as often as one likes. A lexicon puts each
class in an order of its own, in which the set of names settles the list: longer names first, those
of one length by their code points, and every name once. What ends a word is looked up in a set. So
two vocabularies with the same names, up to the case of letters, read every line alike.

* **`arrange_eq_iff`**: which names there are settles how they are arranged.
* **`Alike.next?_eq`**: delimiters are a set as far as the first token of a text is concerned.
* **`readFrom?_of_next?_eq`**: a reading depends on the first tokens of texts only.
* **`Lexicon.read?_of_sameNames`**: vocabularies with the same names read every line alike.
-/

namespace LineCalc

open Text

/-- Two configurations with the same names in each class, up to the case of letters, and with one
number format. -/
structure SameNames (a b : Config) : Prop where
  names : ∀ (C : NameClass) (name : String),
    (∃ key ∈ C.table a, lowercase key = name) ↔ ∃ key ∈ C.table b, lowercase key = name
  format : a.format = b.format

namespace Lexicon

variable {lx other : Lexicon} {a b : Config} {listed others : NameClass → List String}

/-! ## The set of names settles their order -/

theorem notAfter_antisymm {a b : List Char} (hab : notAfter a b = true)
    (hba : notAfter b a = true) : a = b := by
  induction a generalizing b with
  | nil =>
    cases b with
    | nil => rfl
    | cons y b => cases hba
  | cons x a ih =>
    cases b with
    | nil => cases hab
    | cons y b =>
      simp only [notAfter, Bool.or_eq_true, Bool.and_eq_true, decide_eq_true_eq,
        beq_iff_eq] at hab hba
      rcases hab with hlt | ⟨rfl, hab⟩
      · rcases hba with hgt | ⟨rfl, -⟩ <;> omega
      · rw [ih hab (hba.resolve_left (Nat.lt_irrefl _)).2]

theorem longestFirst_antisymm {a b : List Char} (hab : longestFirst a b = true)
    (hba : longestFirst b a = true) : a = b := by
  rw [longestFirst_iff] at hab hba
  rcases hab with hlonger | ⟨hequal, hafter⟩
  · rcases hba with hshorter | ⟨hequal, -⟩ <;> omega
  · rcases hba with hlonger | ⟨-, hbefore⟩
    · omega
    · exact notAfter_antisymm hafter hbefore

/-- Lists of names are arranged alike if they hold the same names in lowercase. -/
theorem arrange_eq_iff {names others : List String} :
    arrange names = arrange others ↔ ∀ name,
      (∃ key ∈ names, lower key.toList = name) ↔ ∃ key ∈ others, lower key.toList = name := by
  have hnodup : ∀ names, (arrange names).Nodup :=
    fun names => nodup_dropRepeats (fun _ _ => longestFirst_antisymm) (sorted_longestFirst _)
  simp only [← mem_arrange]
  constructor
  · intro h name
    rw [h]
  · intro h
    have hperm := (List.perm_ext_iff_of_nodup (hnodup names) (hnodup others)).2 h
    exact hperm.eq_of_pairwise (fun _ _ _ _ => longestFirst_antisymm)
      (arrange_longestFirst names) (arrange_longestFirst others)

/-! ## Lexicons that read alike -/

/-- Two lexicons that differ at most in how their delimiters are listed. -/
structure Alike (lx other : Lexicon) : Prop where
  names : ∀ C : NameClass, C.ofLexicon lx = C.ofLexicon other
  delimiters : ∀ c, c ∈ lx.delimiters ↔ c ∈ other.delimiters
  separator : lx.decimalSeparator = other.decimalSeparator

theorem Alike.isBoundary_eq (h : lx.Alike other) (rest : List Char) :
    lx.isBoundary rest = other.isBoundary rest := by
  cases rest with
  | nil => rfl
  | cons c rest => simp only [isBoundary, List.contains_eq_mem, h.delimiters]

theorem Alike.nameLength?_eq (h : lx.Alike other) (names : List (List Char)) (cs : List Char) :
    lx.nameLength? names cs = other.nameLength? names cs := by
  have hadmits : lx.admits cs = other.admits cs := by
    funext name
    simp only [admits, h.isBoundary_eq]
  rw [nameLength?, nameLength?, hadmits]

theorem Alike.next?_eq (h : lx.Alike other) (atStart : Bool) (cs : List Char) :
    lx.next? atStart cs = other.next? atStart cs := by
  obtain ⟨hoperators, hfunctions, haggregators, hunits⟩ := NameClass.forall_iff.1 h.names
  dsimp only [NameClass.ofLexicon] at hoperators hfunctions haggregators hunits
  simp only [next?, recognizers, List.findSome?_cons, h.separator, h.nameLength?_eq, hoperators,
    hfunctions, haggregators, hunits]

/-- A reading that ends goes on in the same steps wherever the same is recognized. -/
theorem readFrom?_of_next?_eq (h : ∀ atStart cs, lx.next? atStart cs = other.next? atStart cs)
    {offset : Nat} {reversed : List Token} {cs : List Char}
    {result : List Token × Option (List Char)}
    (hread : lx.readFrom? offset reversed cs = some result) :
    other.readFrom? offset reversed cs = some result := by
  refine readFrom?.partial_correctness lx
    (fun offset reversed cs result => other.readFrom? offset reversed cs = some result) ?_
    offset reversed cs result hread
  intro readOn ih offset reversed cs result hresult
  cases htrim : trimStart cs with
  | nil =>
    rw [htrim] at hresult
    rw [readFrom?_of_blank htrim]
    exact hresult
  | cons c rest =>
    rw [htrim] at hresult
    cases hnext : lx.next? reversed.isEmpty (c :: rest) with
    | none =>
      rw [readFrom?_of_none htrim (h _ _ ▸ hnext)]
      simpa only [hnext] using hresult
    | some found =>
      obtain ⟨kind, n⟩ := found
      rw [readFrom?_of_next? htrim (h _ _ ▸ hnext)]
      simp only [hnext] at hresult
      exact ih _ _ _ _ hresult

theorem Alike.read?_eq (h : lx.Alike other) (line : String) :
    lx.read? line = other.read? line := by
  have hread : lx.readFrom? 0 [] line.toList = other.readFrom? 0 [] line.toList := by
    refine Option.ext fun result => ⟨fun hresult => ?_, fun hresult => ?_⟩
    · exact readFrom?_of_next?_eq h.next?_eq hresult
    · exact readFrom?_of_next?_eq (fun atStart cs => (h.next?_eq atStart cs).symm) hresult
  rw [read?, read?, hread]

/-! ## Names in any order -/

/-- The lexicon of a configuration whose names are listed class by class. -/
def ofListing (config : Config) (listed : NameClass → List String) : Lexicon where
  operators := arrange (listed .operator)
  functions := arrange (listed .function)
  aggregators := arrange (listed .aggregator)
  units := arrange (listed .unit)
  delimiters := '(' :: ')' :: ';' :: ((listed .operator).flatMap String.toList).filter endsWord
  decimalSeparator := config.format.decimalSeparator

/-- Tables list their names in an order of their own. -/
theorem ofListing_table (config : Config) :
    ofListing config (fun C => C.table config) = ofConfig config := rfl

theorem ofLexicon_ofListing (config : Config) (C : NameClass) :
    C.ofLexicon (ofListing config listed) = arrange (listed C) := by
  cases C <;> rfl

/-- The names of a configuration are listed, in whatever order and however often. -/
def Lists (config : Config) (listed : NameClass → List String) : Prop :=
  ∀ C key, key ∈ listed C ↔ key ∈ C.table config

/-- Operators are kept in lowercase, so up to the case of letters there is one key for a symbol. -/
theorem mem_operatorSymbols_iff (hbuilt : a.toDraft.Built) {key : String} :
    key ∈ a.operatorSymbols ↔ ∃ other ∈ NameClass.operator.table a, lowercase other = key := by
  have hself : ∀ other ∈ a.operatorSymbols, lowercase other = other := by
    intro other hother
    obtain ⟨symbol, rfl⟩ := exists_lowercase_of_mem_operatorSymbols hbuilt hother
    rw [lowercase, lowercase, String.toList_ofList, lower_lower]
  constructor
  · intro hkey
    exact ⟨key, hkey, hself key hkey⟩
  · rintro ⟨other, hother, rfl⟩
    rwa [hself other hother]

theorem alike_ofListing (ha : a.toDraft.Built) (hb : b.toDraft.Built) (hsame : SameNames a b)
    (hlisted : Lists a listed) (hothers : Lists b others) :
    (ofListing a listed).Alike (ofListing b others) where
  names := by
    intro C
    rw [ofLexicon_ofListing, ofLexicon_ofListing, arrange_eq_iff]
    intro name
    have hnames := hsame.names C (String.ofList name)
    simpa only [lowercase, String.ofList_inj, ← hlisted C, ← hothers C] using hnames
  delimiters := by
    intro c
    have hsymbols : ∀ symbol, symbol ∈ listed .operator ↔ symbol ∈ others .operator := by
      intro symbol
      rw [hlisted, hothers]
      exact (mem_operatorSymbols_iff ha).trans
        ((hsame.names .operator symbol).trans (mem_operatorSymbols_iff hb).symm)
    simp only [ofListing, List.mem_cons, List.mem_filter, List.mem_flatMap, hsymbols]
  separator := by rw [ofListing, ofListing, hsame.format]

/--
Two vocabularies that have been put together with the same operators, functions, aggregators and
units, up to the case of letters, and the same number format read every line alike, whatever order
and however often their tables list the names: the same tokens, or the same error, or no end.
-/
theorem read?_of_sameNames (ha : a.toDraft.Built) (hb : b.toDraft.Built) (hsame : SameNames a b)
    (line : String) :
    ((ofConfig a).read? line = (ofConfig b).read? line ∧
        (ofConfig a).lex line = (ofConfig b).lex line) ∧
      ∀ listed others : NameClass → List String, Lists a listed → Lists b others →
        (ofListing a listed).read? line = (ofListing b others).read? line ∧
          (ofListing a listed).lex line = (ofListing b others).lex line := by
  have hlistings : ∀ listed others : NameClass → List String, Lists a listed → Lists b others →
      (ofListing a listed).read? line = (ofListing b others).read? line ∧
        (ofListing a listed).lex line = (ofListing b others).lex line := by
    intro listed others hlisted hothers
    have hread := (alike_ofListing ha hb hsame hlisted hothers).read?_eq line
    exact ⟨hread, by rw [lex, lex, hread]⟩
  refine ⟨?_, hlistings⟩
  have htables := hlistings (fun C => C.table a) (fun C => C.table b)
    (fun _ _ => .rfl) fun _ _ => .rfl
  rwa [ofListing_table, ofListing_table] at htables

/-- The standard vocabulary, each table of which is filled from its end. -/
def backward : Config where
  toDraft :=
    Standard.aggregators.reverse.foldl Draft.addAggregator
      (Standard.functions.reverse.foldl Draft.addFunction
        (Standard.operators.reverse.foldl Draft.addOperator { units := Standard.units }))
  acceptable := by decide +kernel

/-- Lines are read by it as by the standard vocabulary, with the functions in another order. -/
theorem read?_of_sameNames_backward :
    backward.toDraft.Built ∧ SameNames backward .standard ∧
      backward.functions.names ≠ Config.standard.functions.names ∧
      ∀ line, (ofConfig backward).lex line = (ofConfig .standard).lex line := by
  have hbuilt : backward.toDraft.Built := by
    refine Standard.built_foldl (fun _ a h => h.aggregator a) ?_ _
    refine Standard.built_foldl (fun _ f h => h.function f) ?_ _
    exact Standard.built_foldl (fun _ op h => h.operator op) Standard.built_units _
  have hperm : ∀ C : NameClass, (C.table backward).Perm (C.table .standard) := by
    refine NameClass.forall_iff.2 ⟨by decide +kernel, by decide +kernel, by decide +kernel, ?_⟩
    have hunits : backward.units = Config.standard.units := rfl
    exact .of_eq (congrArg Registry.names hunits)
  have hsame : SameNames backward .standard :=
    ⟨fun C name => by simp only [(hperm C).mem_iff], rfl⟩
  exact ⟨hbuilt, hsame, by decide +kernel,
    fun line => (read?_of_sameNames hbuilt Standard.built_draft hsame line).1.2⟩

end Lexicon

end LineCalc
