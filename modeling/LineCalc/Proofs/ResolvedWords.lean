import LineCalc.Proofs.Progress
import LineCalc.Proofs.Separators

/-!
# Words that a table resolves

A table is asked for the lowercase of a text as a whole, while the lexicon looks for as many
characters as the lowercase of a name has. For a word, a text of letters only, both agree unless the
word holds the capital I with a dot: that is the one character whose lowercase is two, and a word
with it is shorter than its lowercase, so that the name is found by the tables and never read.

* **`length_lower`**: the length of a lowercase.
* **`isAlphabetic_of_mem_lower`**: the lowercase of a word is a word, that one character aside.
* **`Lexicon.admissible_word_iff`**: at a word no name stands but the word itself.
* **`Lexicon.lex_word_iff`**: a word is a token of the first class whose table has it.
* **`Lexicon.lex_of_resolves`**: which of the words that tables resolve are read as names.
-/

namespace LineCalc

open Text

namespace Text

/-! ## The length of a lowercase -/

theorem length_lowerAfter (before cs : List Char) :
    (lowerAfter before cs).length = cs.length + cs.count 'İ' := by
  induction cs generalizing before with
  | nil => rfl
  | cons c rest ih =>
    have hhead : (if c = 'Σ' then if startsCased before && !startsCased rest then ['ς'] else ['σ']
        else lowerChar c).length = 1 + [c].count 'İ' := by
      by_cases hsigma : c = 'Σ'
      · subst hsigma
        rw [if_pos rfl]
        split <;> rfl
      · by_cases hdotted : c = 'İ'
        · subst hdotted
          rfl
        · rw [if_neg hsigma, lowerChar, if_neg hdotted, List.count_singleton,
            if_neg (by simpa using hdotted), List.length_singleton]
    have hcount : (c :: rest).count 'İ' = [c].count 'İ' + rest.count 'İ' := by
      rw [← List.count_append, List.singleton_append]
    rw [lowerAfter, List.length_append, hhead, ih, List.length_cons, hcount]
    omega

/-- Only the capital I with a dot makes a lowercase longer. -/
theorem length_lower (cs : List Char) : (lower cs).length = cs.length + cs.count 'İ' :=
  length_lowerAfter [] cs

theorem length_lower_eq_iff {cs : List Char} : (lower cs).length = cs.length ↔ 'İ' ∉ cs := by
  rw [length_lower, Nat.add_eq_left, List.count_eq_zero]

/-! ## Letters -/

/-- The sets that what counts as a letter in words is put together from. -/
def alphabets : List Intervals :=
  [letters, laterLetters, letterNumbers, otherAlphabetic]

theorem isAlphabetic_iff {c : Char} :
    isAlphabetic c = true ↔ ∃ alphabet ∈ alphabets, alphabet.covers c.toNat = true := by
  simp [isAlphabetic, isLetter, alphabets, or_assoc]

theorem not_covers_of_isAlphabetic {others : Intervals}
    (hothers : ∀ alphabet ∈ alphabets, alphabet.apart others = true) {c : Char}
    (h : isAlphabetic c = true) : others.covers c.toNat = false := by
  obtain ⟨alphabet, hmem, hcovers⟩ := isAlphabetic_iff.1 h
  exact Intervals.not_covers_of_apart (hothers alphabet hmem) hcovers

theorem isBlank_of_isAlphabetic {c : Char} (h : isAlphabetic c = true) : isBlank c = false :=
  not_covers_of_isAlphabetic (by decide +kernel) h

theorem isDigit_of_isAlphabetic {c : Char} (h : isAlphabetic c = true) : isDigit c = false :=
  not_covers_of_isAlphabetic (by decide +kernel) h

theorem not_structural_of_isAlphabetic {c : Char} (h : isAlphabetic c = true) :
    c ∉ NumberFormat.structural := by
  have hstructural : ∀ d ∈ NumberFormat.structural, isAlphabetic d = false :=
    List.all_iff_forall_prop.1 (by decide +kernel)
  intro hmem
  rw [hstructural c hmem] at h
  cases h

/-! ## The lowercase of letters -/

/-- Whether one interval of the set holds every number from `first` to `last`. -/
def Intervals.spans : Intervals → Nat → Nat → Bool
  | [], _, _ => false
  | (lowest, highest) :: rest, first, last =>
    if first < lowest then false
    else if last ≤ highest then true
    else highest < first && spans rest first last

theorem Intervals.covers_of_spans {s : Intervals} {first last n : Nat}
    (h : s.spans first last = true) (hfirst : first ≤ n) (hlast : n ≤ last) :
    s.covers n = true := by
  induction s with
  | nil => cases h
  | cons p rest ih =>
    obtain ⟨lowest, highest⟩ := p
    unfold spans at h
    unfold covers
    split at h
    · cases h
    rw [if_neg (by omega)]
    split at h
    · rw [if_pos (by omega)]
    · simp only [Bool.and_eq_true, decide_eq_true_eq] at h
      rw [if_neg (by omega)]
      exact ih h.2

/-- Whether a row of the table moves its code points to letters, taken together or one by one. -/
def movesToLetters (row : Nat × Nat × Nat × Int) : Bool :=
  let first := (row.1 + row.2.2.2).toNat
  let last := (row.2.1 + row.2.2.2).toNat
  (alphabets.any (·.spans first last) && (last < 0xD800 || 0xDFFF < first && last < 0x110000)) ||
    (List.range (last - first + 1)).all fun k => isAlphabetic (Char.ofNat (first + k))

theorem movesToLetters_lowercaseShifts : ∀ row ∈ lowercaseShifts, movesToLetters row = true :=
  List.all_eq_true.1 (by decide +kernel)

theorem isAlphabetic_of_movesToLetters {row : Nat × Nat × Nat × Int}
    (h : movesToLetters row = true) {n : Nat} (hfirst : row.1 ≤ n) (hlast : n ≤ row.2.1) :
    isAlphabetic (Char.ofNat (n + row.2.2.2).toNat) = true := by
  have hlow : (row.1 + row.2.2.2).toNat ≤ (n + row.2.2.2).toNat := by omega
  have hhigh : (n + row.2.2.2).toNat ≤ (row.2.1 + row.2.2.2).toNat := by omega
  generalize (n + row.2.2.2).toNat = code at hlow hhigh
  simp only [movesToLetters, Bool.or_eq_true, Bool.and_eq_true, List.any_eq_true, List.all_eq_true,
    List.mem_range, decide_eq_true_eq] at h
  rcases h with ⟨⟨alphabet, hmem, hspans⟩, hvalid⟩ | hsingle
  · have hcode : (Char.ofNat code).toNat = code := by
      refine toNat_ofNat_of_isValidChar ?_
      unfold Nat.isValidChar
      omega
    refine isAlphabetic_iff.2 ⟨alphabet, hmem, ?_⟩
    rw [hcode]
    exact Intervals.covers_of_spans hspans hlow hhigh
  · have hletter := hsingle (code - (row.1 + row.2.2.2).toNat) (by omega)
    rwa [Nat.add_sub_cancel' hlow] at hletter

theorem isAlphabetic_of_mem_lowerChar {x y : Char} (hx : isAlphabetic x = true) (hdotted : x ≠ 'İ')
    (hy : y ∈ lowerChar x) : isAlphabetic y = true := by
  rw [lowerChar, if_neg hdotted, List.mem_singleton] at hy
  subst hy
  rcases shiftedCode_eq_or_exists x.toNat lowercaseShifts with
    hself | ⟨row, hrow, hfirst, hlast, -, hmoved⟩
  · rwa [hself, Char.ofNat_toNat]
  · rw [hmoved]
    exact isAlphabetic_of_movesToLetters (movesToLetters_lowercaseShifts row hrow) hfirst hlast

/-- The lowercase of letters is made of letters, if no capital I with a dot is among them. -/
theorem isAlphabetic_of_mem_lower {cs : List Char} (hletters : ∀ c ∈ cs, isAlphabetic c = true)
    (hdotted : 'İ' ∉ cs) : ∀ c ∈ lower cs, isAlphabetic c = true := by
  intro c hc
  rcases mem_of_mem_lowerAfter hc with rfl | rfl | ⟨x, hx, hc⟩
  · decide +kernel
  · decide +kernel
  · exact isAlphabetic_of_mem_lowerChar (hletters x hx) (fun h => hdotted (h ▸ hx)) hc

end Text

/-! ## Tables -/

/-- The table of a class has an entry under a text, in whatever case it is written. -/
def NameClass.Resolves (config : Config) (text : String) (C : NameClass) : Prop :=
  Token.Resolves config ⟨C.kind, text, 0⟩

/-- A table has an entry under a text where the lexicon has the lowercase of the text as a name. -/
theorem NameTable.KeyedBy.exists_find?_iff {α : Type} {namesOf : α → List String}
    {t : NameTable α} (h : t.KeyedBy namesOf) {text : String} :
    (∃ a, t.find? text = some a) ↔ ∃ key ∈ t.names, lower key.toList = lower text.toList := by
  constructor
  · rintro ⟨a, hfind⟩
    refine ⟨lowercase text, Assoc.mem_keys.2 ⟨a, hfind⟩, ?_⟩
    rw [lowercase, String.toList_ofList, lower_lower]
  · intro hnamed
    obtain ⟨a, hfind, -⟩ := h.find?_of_mem_arrange (Lexicon.mem_arrange.2 hnamed)
    exact ⟨a, hfind⟩

theorem NameClass.resolves_iff {config : Config} (hbuilt : config.toDraft.Built) {text : String}
    (C : NameClass) :
    C.Resolves config text ↔ ∃ key ∈ C.table config, lower key.toList = lower text.toList := by
  have hkeyed := hbuilt.keyed
  cases C with
  | operator =>
    have hsymbols : NameClass.operator.Resolves config text ↔
        (∃ op, config.unaryOperators.find? text = some op) ∨
          ∃ op, config.binaryOperators.find? text = some op := Iff.rfl
    rw [hsymbols, hkeyed.unaryOperators.exists_find?_iff, hkeyed.binaryOperators.exists_find?_iff]
    simp only [table, Draft.operatorSymbols, mem_dropRepeats, mem_sortNames, List.mem_append,
      or_and_right, exists_or]
    exact or_comm
  | function => exact hkeyed.functions.exists_find?_iff
  | aggregator => exact hkeyed.aggregators.exists_find?_iff
  | unit =>
    simp only [table, Registry.names, mem_sortNames]
    exact hbuilt.keyedUnits.exists_find?_iff

namespace Lexicon

variable {config : Config} {C : NameClass} {text : String} {word : List Char}

/-! ## Names at a word -/

/-- No letter ends a word. -/
theorem not_endsWord_of_isAlphabetic {c : Char} (h : isAlphabetic c = true) :
    ¬EndsWord config c := by
  rintro (hblank | hstructure | ⟨hsign, -⟩)
  · rw [isBlank_of_isAlphabetic h] at hblank
    cases hblank
  · have hbrackets : ∀ d ∈ ['(', ')', ';'], d ∈ NumberFormat.structural :=
      List.all_iff_forall_prop.1 (by decide)
    exact not_structural_of_isAlphabetic h (hbrackets c hstructure)
  · rw [isAlphanumeric, h, Bool.true_or] at hsign
    cases hsign

/-- A name at a word is as long as the word: a shorter one would end before a letter. -/
theorem length_eq_of_admissible (hletters : ∀ c ∈ word, isAlphabetic c = true) {name : List Char}
    (h : Admissible config word C name) : name.length = word.length := by
  refine Nat.le_antisymm h.fits (Nat.not_lt.1 fun hshort => ?_)
  have htaken : (lower (word.take name.length)).length = (word.take name.length).length := by
    rw [h.spelled, List.length_take, Nat.min_eq_left h.fits]
  have hname : ∀ c ∈ name, isAlphabetic c = true := by
    have hlower := isAlphabetic_of_mem_lower
      (fun c hc => hletters c (List.mem_of_mem_take hc)) (length_lower_eq_iff.1 htaken)
    rwa [h.spelled] at hlower
  have hnext : word[name.length] ∈ (word.drop name.length).head? := by
    rw [List.head?_drop, List.getElem?_eq_getElem hshort]
    rfl
  exact not_endsWord_of_isAlphabetic (hletters _ (List.getElem_mem hshort))
    (h.ended hname _ hnext)

/-- At a word stands only the word itself, if it is a name and no longer in lowercase. -/
theorem admissible_word_iff (hletters : ∀ c ∈ word, isAlphabetic c = true) {name : List Char} :
    Admissible config word C name ↔
      name = lower word ∧ 'İ' ∉ word ∧ ∃ key ∈ C.table config, lower key.toList = lower word := by
  constructor
  · intro h
    have hlength := length_eq_of_admissible hletters h
    have hname : lower word = name := by
      have hspelled := h.spelled
      rwa [hlength, List.take_length] at hspelled
    subst hname
    exact ⟨rfl, length_lower_eq_iff.1 hlength, h.named⟩
  · rintro ⟨rfl, hdotted, hnamed⟩
    have hlength := length_lower_eq_iff.2 hdotted
    refine ⟨hnamed, hlength.le, by rw [hlength, List.take_length], fun _ c hc => ?_⟩
    rw [hlength, List.drop_length] at hc
    cases hc

/-- Nothing is recognized before the names where a word starts. -/
theorem not_startsUnnamed_word {c : Char} {rest : List Char} (h : isAlphabetic c = true)
    (atStart : Bool) : ¬StartsUnnamed config atStart (c :: rest) := by
  have hstructural := not_structural_of_isAlphabetic h
  refine not_startsUnnamed (isDigit_of_isAlphabetic h) ?_ ?_ ?_
  · rintro - rfl
    exact hstructural (by decide)
  · intro hmem
    have hstructure : ∀ d ∈ [':', '=', '(', ')', ';'], d ∈ NumberFormat.structural :=
      List.all_iff_forall_prop.1 (by decide)
    exact hstructural (hstructure c hmem)
  · rintro rfl
    -- the decimal separator is told apart from words
    have hseparator := config.acceptable.1
    simp [NumberFormat.isSeparator, isAlphanumeric, h] at hseparator

theorem nameLength?_word_eq_some_iff (hbuilt : config.toDraft.Built)
    (hletters : ∀ c ∈ text.toList, isAlphabetic c = true) :
    (ofConfig config).nameLength? (C.ofLexicon (ofConfig config)) text.toList =
        some text.toList.length ↔
      'İ' ∉ text.toList ∧ C.Resolves config text := by
  rw [nameLength?_ofConfig_eq_some_iff, C.resolves_iff hbuilt]
  simp only [admissible_word_iff hletters]
  constructor
  · rintro ⟨⟨name, ⟨-, hdotted, hnamed⟩, -⟩, -⟩
    exact ⟨hdotted, hnamed⟩
  · rintro ⟨hdotted, hnamed⟩
    have hlength := length_lower_eq_iff.2 hdotted
    refine ⟨⟨lower text.toList, ⟨rfl, hdotted, hnamed⟩, hlength⟩, ?_⟩
    rintro _ ⟨name, ⟨rfl, -⟩, rfl⟩
    exact hlength.le

theorem nameLength?_word_eq_none_iff (hbuilt : config.toDraft.Built)
    (hletters : ∀ c ∈ text.toList, isAlphabetic c = true) :
    (ofConfig config).nameLength? (C.ofLexicon (ofConfig config)) text.toList = none ↔
      ('İ' ∉ text.toList → ¬C.Resolves config text) := by
  rw [nameLength?_ofConfig_eq_none_iff, C.resolves_iff hbuilt]
  simp only [admissible_word_iff hletters]
  constructor
  · intro h hdotted hnamed
    exact h _ ⟨rfl, hdotted, hnamed⟩
  · rintro h _ ⟨-, hdotted, hnamed⟩
    exact h hdotted hnamed

/-! ## The token of a word -/

theorem startsWord_of_isAlphabetic (hne : text ≠ "")
    (hletters : ∀ c ∈ text.toList, isAlphabetic c = true) : StartsWord text.toList := by
  obtain ⟨c, rest, hcons⟩ := List.exists_cons_of_ne_nil (mt String.toList_eq_nil_iff.1 hne)
  exact ⟨c, rest, hcons, isBlank_of_isAlphabetic (hletters c (hcons ▸ List.mem_cons_self ..))⟩

theorem unnamed?_word (hne : text ≠ "") (hletters : ∀ c ∈ text.toList, isAlphabetic c = true) :
    (ofConfig config).unnamed? true text.toList = none := by
  obtain ⟨c, rest, hcons, -⟩ := startsWord_of_isAlphabetic hne hletters
  rw [unnamed?_eq_none_iff, hcons]
  exact not_startsUnnamed_word (hletters c (hcons ▸ List.mem_cons_self ..)) true

/-- A word is a token of the first class whose table has it, unless it is shorter than its
lowercase. -/
theorem lex_word_iff (hbuilt : config.toDraft.Built) (hne : text ≠ "")
    (hletters : ∀ c ∈ text.toList, isAlphabetic c = true) :
    (ofConfig config).lex text = .ok [⟨C.kind, text, 0⟩] ↔
      'İ' ∉ text.toList ∧ C.Resolves config text ∧
        ∀ earlier : NameClass, earlier.rank < C.rank → ¬earlier.Resolves config text := by
  rw [lex_eq_single_iff (startsWord_of_isAlphabetic hne hletters), next?_eq_name_iff,
    nameLength?_word_eq_some_iff hbuilt hletters]
  simp only [nameLength?_word_eq_none_iff hbuilt hletters, unnamed?_word hne hletters, true_and]
  constructor
  · rintro ⟨hearlier, hdotted, hresolves⟩
    exact ⟨hdotted, hresolves, fun earlier hlt => hearlier earlier hlt hdotted⟩
  · rintro ⟨hdotted, hresolves, hearlier⟩
    exact ⟨fun earlier hlt _ => hearlier earlier hlt, hdotted, hresolves⟩

/-- With the capital I with a dot among its letters, a word is free whatever the tables have. -/
theorem lex_dotted (hbuilt : config.toDraft.Built) (hdotted : 'İ' ∈ text.toList)
    (hletters : ∀ c ∈ text.toList, isLetter c = true) :
    (ofConfig config).lex text = .ok [⟨.identifier, text, 0⟩] := by
  have hne : text ≠ "" := by
    rintro rfl
    cases hdotted
  have halphabetic : ∀ c ∈ text.toList, isAlphabetic c = true := by
    intro c hc
    simp only [isAlphabetic, hletters c hc, Bool.true_or]
  have hword : text.toList.takeWhile isWordChar = text.toList := by
    refine List.takeWhile_eq_self_iff.2 fun c hc => ?_
    rw [isWordChar, hletters c hc, Bool.true_or]
  have hlength : text.toList.length ≠ 0 := (List.length_pos_of_mem hdotted).ne'
  rw [lex_eq_single_iff (startsWord_of_isAlphabetic hne halphabetic), next?_eq_word_iff]
  refine ⟨unnamed?_word hne halphabetic, fun C => ?_, wordLength?_eq_some_iff.2 ⟨?_, hlength⟩⟩
  · exact (nameLength?_word_eq_none_iff hbuilt halphabetic).2 fun h => absurd hdotted h
  · rw [hword]

/--
Of the words that some table of a built vocabulary resolves, those are read as a single name of a
class that hold no capital I with a dot, and the class is the first one whose table resolves them. A
word of letters with that character is read as a free word.
-/
theorem lex_of_resolves (hbuilt : config.toDraft.Built) (hne : text ≠ "")
    (hletters : ∀ c ∈ text.toList, isAlphabetic c = true)
    (hresolves : ∃ C : NameClass, C.Resolves config text) :
    ((∃ C : NameClass, (ofConfig config).lex text = .ok [⟨C.kind, text, 0⟩]) ↔
        'İ' ∉ text.toList) ∧
      (∀ C : NameClass, (ofConfig config).lex text = .ok [⟨C.kind, text, 0⟩] →
        C.Resolves config text ∧
          ∀ earlier : NameClass, earlier.rank < C.rank → ¬earlier.Resolves config text) ∧
      ('İ' ∈ text.toList → (∀ c ∈ text.toList, isLetter c = true) →
        (ofConfig config).lex text = .ok [⟨.identifier, text, 0⟩]) := by
  refine ⟨⟨?_, fun hdotted => ?_⟩, fun C hlex => ?_, lex_dotted hbuilt⟩
  · rintro ⟨C, hlex⟩
    exact ((lex_word_iff hbuilt hne hletters).1 hlex).1
  · obtain ⟨C, hC⟩ := hresolves
    obtain ⟨first, -, hfirst, hearlier⟩ := NameClass.exists_first hC
    exact ⟨first, (lex_word_iff hbuilt hne hletters).2 ⟨hdotted, hfirst, hearlier⟩⟩
  · exact ((lex_word_iff hbuilt hne hletters).1 hlex).2

/-- A vocabulary of two functions. The name of the first one has the capital I with a dot. -/
def downAndUp : Config where
  toDraft :=
    (Draft.addFunction {} ⟨"İndir", .round .floor⟩).addFunction ⟨"Yukarı", .round .ceil⟩
  acceptable := by decide

/-- Both functions are found under their names, and only the second one is read. -/
theorem lex_of_resolves_downAndUp :
    downAndUp.toDraft.Built ∧ NameClass.function.Resolves downAndUp "İndir" ∧
      (ofConfig downAndUp).lex "İndir" = .ok [⟨.identifier, "İndir", 0⟩] ∧
      NameClass.function.Resolves downAndUp "yukarı" ∧
      ∃ C : NameClass, (ofConfig downAndUp).lex "yukarı" = .ok [⟨C.kind, "yukarı", 0⟩] := by
  have hbuilt : downAndUp.toDraft.Built := .function (.function .start _) _
  have hdown : NameClass.function.Resolves downAndUp "İndir" := ⟨_, rfl⟩
  have hup : NameClass.function.Resolves downAndUp "yukarı" := ⟨_, rfl⟩
  have hletters : ∀ c ∈ "İndir".toList ++ "yukarı".toList,
      isAlphabetic c = true ∧ isLetter c = true :=
    List.all_iff_forall_prop.1 (by decide +kernel)
  obtain ⟨hdownLetters, hupLetters⟩ := List.forall_mem_append.1 hletters
  have hread := lex_of_resolves hbuilt (by decide) (fun c hc => (hdownLetters c hc).1) ⟨_, hdown⟩
  have hnamed := lex_of_resolves hbuilt (by decide) (fun c hc => (hupLetters c hc).1) ⟨_, hup⟩
  exact ⟨hbuilt, hdown, hread.2.2 (by decide) fun c hc => (hdownLetters c hc).2, hup,
    hnamed.1.2 (by decide)⟩

end Lexicon

end LineCalc
