import LineCalc.Proofs.Amounts
import LineCalc.Proofs.NameTokens
import LineCalc.Proofs.TokenSpans

/-!
# What is printed is read

Tokens that are printed with a space between any two of them are read again as these tokens, in the
standard vocabulary. A number, a sign and a bracket are read as such before any space. A name or a
free word could go on after the space, as some operators of several words do; but these go on with a
letter, so that a word is cut off where the next token is no word.

* **`Printed`**: what is printed as a token of a kind.
* **`Separated`**: what may follow a word, and what may follow anything else.
* **`next?_of_printed`**: one token is read.
* **`scan_printed`**: all tokens are read, and where they stand.
* **`lex_intercalate`**: reading undoes printing.
-/

namespace LineCalc

open Text Lexicon

namespace Standard

/-! ## What is printed -/

/-- The texts that are printed as tokens of a kind; names may be in any case. -/
inductive Printed : TokenKind → List Char → Prop where
  | number (l : Literal) : Printed .number (l.chars '.')
  | unit {text : List Char} (h : lower text ∈ lexicon.units) : Printed .unit text
  | operator {sign : Char} (h : sign ∈ symbols) : Printed .operator [sign]
  | openParen : Printed .openParen ['(']
  | closeParen : Printed .closeParen [')']
  | semicolon : Printed .semicolon [';']
  | function {text : List Char} (h : lower text ∈ lexicon.functions) : Printed .function text
  | aggregator {text : List Char} (h : lower text ∈ lexicon.aggregators) : Printed .aggregator text
  | identifier {text : List Char} (h : lexicon.FreeWord text) : Printed .identifier text

/-- A unit is printed under any of its names, in any case. -/
theorem printed_of_listed {text : String} (name : String)
    (hunit : ∃ u ∈ listedUnits, name ∈ u.names) (hcase : lowercase text = lowercase name) :
    Printed .unit text.toList := by
  obtain ⟨u, hu, hname⟩ := hunit
  have hlookup : Config.standard.units.lookup text = some u := by
    rw [Registry.lookup_eq, hcase, ← Registry.lookup_eq, units_standard]
    exact registered_units.2 u hu name hname
  exact .unit (unitWord_of_lookup hlookup).2.2

/-- Whether a token is a word. Numbers, brackets and operators are none, nor are units of a sign. -/
def isWord (kind : TokenKind) (text : List Char) : Bool :=
  match kind with
  | .function | .aggregator | .identifier => true
  | .unit => !signs.any (text == [·])
  | _ => false

/-- The characters that printed tokens start with that are no words. -/
def openers : List Char :=
  ['0', '1', '2', '3', '4', '5', '6', '7', '8', '9', '.', '(', ')', ';'] ++ signs ++ symbols

theorem lowerChar_of_mem_openers :
    ∀ c ∈ openers, lowerChar c = [c] ∧ isLetter c = false ∧ isBlank c = false :=
  List.all_iff_forall_prop.1 (by decide +kernel)

/-- After a token nothing follows, or a space and the next token, which is no word after a word. -/
def Separated (kind : TokenKind) (text rest : List Char) : Prop :=
  rest = [] ∨ ∃ c more, rest = ' ' :: c :: more ∧ (isWord kind text = true → c ∈ openers)

theorem Separated.endsNumber {kind : TokenKind} {text rest : List Char}
    (h : Separated kind text rest) : EndsNumber rest := by
  rcases h with rfl | ⟨c, more, rfl, -⟩
  · exact .inl rfl
  · exact .inr ⟨c :: more, rfl⟩

theorem Separated.isBoundary {kind : TokenKind} {text rest : List Char}
    (h : Separated kind text rest) : lexicon.isBoundary rest = true := by
  rcases h with rfl | ⟨c, more, rfl, -⟩
  · rfl
  · have hblank : isBlank ' ' = true := by decide
    simp [Lexicon.isBoundary, hblank]

/-! ## What cuts a token off -/

/-- A sign is cut off by what follows: no longer name starts with it. -/
theorem cuts_of_sign {kind : TokenKind} {sign : Char} {rest : List Char} (hsign : sign ∈ openers)
    (hrest : Separated kind [sign] rest) : Cuts [sign] rest where
  boundary := hrest.isBoundary
  longer := by
    intro name hname hlong
    rw [Bool.eq_false_iff]
    intro hadmits
    simp only [admits, Bool.and_eq_true, beq_iff_eq] at hadmits
    have hlowers := lowersTo_of_lower hadmits.1.2 (ordinary_of_mem_names hname).special
    have hletter := isLetter_head_of_mem_names hname hlong
    -- the name would start with the sign
    cases name with
    | nil => cases hlong
    | cons y others =>
    obtain ⟨hself, hsignLetter, -⟩ := lowerChar_of_mem_openers sign hsign
    rw [List.length_cons, List.singleton_append, List.take_succ_cons] at hlowers
    cases hlowers with
    | cons hhead _ =>
    obtain rfl : sign = y := List.singleton_inj.1 (hself.symm.trans hhead.2)
    rw [hletter sign rfl] at hsignLetter
    cases hsignLetter

/-- A word is cut off by the end of the line, and by a space and what is no word. -/
theorem cuts_of_word {kind : TokenKind} {word rest : List Char} (hword : isWord kind word = true)
    (hspace : ' ' ∉ word) (hrest : Separated kind word rest) : Cuts word rest where
  boundary := hrest.isBoundary
  longer := by
    intro name hname hlong
    rw [Bool.eq_false_iff]
    intro hadmits
    rcases hrest with rfl | ⟨c, more, rfl, hopener⟩
    · have hle := length_le_of_admits hadmits
      rw [List.append_nil] at hle
      omega
    · -- the name goes on with the space and then with a letter, but no letter follows
      obtain ⟨n, before, after, rfl, hbefore, hafter⟩ :=
        exists_append_of_admits (ordinary_of_mem_names hname) hlong hadmits
      rw [List.take_succ_cons] at hafter
      cases hafter with
      | cons hhead htail =>
      rename_i y ys
      have hself : lowerChar ' ' = [' '] := by decide
      obtain rfl : ' ' = y := List.singleton_inj.1 (hself.symm.trans hhead.2)
      have hnone : ' ' ∉ before := fun hmem =>
        hspace (hbefore.mem_of_untouched (by decide +kernel) hmem)
      obtain ⟨z, hz, hletter⟩ := exists_isLetter_of_mem_names hname hnone
      obtain ⟨zs, rfl⟩ := List.head?_eq_some_iff.1 hz
      obtain ⟨hc, hnoLetter, -⟩ := lowerChar_of_mem_openers c (hopener hword)
      cases n with
      | zero => cases htail
      | succ n =>
        rw [List.take_succ_cons] at htail
        cases htail with
        | cons hnext _ =>
        obtain rfl : c = z := List.singleton_inj.1 (hc.symm.trans hnext.2)
        rw [hletter] at hnoLetter
        cases hnoLetter

/-! ## One token -/

variable {kind : TokenKind} {text rest : List Char}

theorem mem_openers_of_figure {c : Char} (h : Figure c) : c ∈ openers := by
  have hfigures : ∀ n < 58, 48 ≤ n → Char.ofNat n ∈ openers := by decide +kernel
  have hvalue := h.value
  unfold asciiDigit? at hvalue
  split at hvalue
  · rename_i hrange
    have hlow : 48 ≤ c.toNat := hrange.1
    have hhigh : c.toNat ≤ 57 := hrange.2
    have hmem := hfigures c.toNat (by omega) hlow
    rwa [Char.ofNat_toNat] at hmem
  · cases hvalue

theorem mem_openers_of_mem_signs {c : Char} (h : c ∈ signs ++ symbols) : c ∈ openers := by
  rw [openers, List.append_assoc]
  exact List.mem_append_right _ h

/-- What a printed token starts with that is no word. -/
theorem Printed.exists_opener (h : Printed kind text) (hword : isWord kind text = false) :
    ∃ c more, text = c :: more ∧ c ∈ openers := by
  cases h with
  | number l =>
    obtain ⟨c, more, hchars, hfigure | rfl⟩ := l.exists_chars_eq_cons '.'
    · exact ⟨c, more, hchars, mem_openers_of_figure hfigure⟩
    · exact ⟨'.', more, hchars, by decide⟩
  | unit hunit =>
    simp only [isWord, Bool.not_eq_false', List.any_eq_true, beq_iff_eq] at hword
    obtain ⟨sign, hsign, rfl⟩ := hword
    exact ⟨sign, [], rfl, mem_openers_of_mem_signs (List.mem_append_left _ hsign)⟩
  | operator hsign =>
    exact ⟨_, [], rfl, mem_openers_of_mem_signs (List.mem_append_right _ hsign)⟩
  | openParen | closeParen | semicolon => exact ⟨_, [], rfl, by decide⟩
  | function | aggregator | identifier => cases hword

/-- The names of functions and aggregators are made of letters and are the names of nothing else. -/
theorem letters_of_mem_calls {name : List Char}
    (h : name ∈ lexicon.functions ++ lexicon.aggregators) :
    (∀ c ∈ name, isLetter c = true) ∧ name ∉ lexicon.operators ∧
      (name ∈ lexicon.aggregators → name ∉ lexicon.functions) := by
  have hnames : ∀ name ∈ lexicon.functions ++ lexicon.aggregators,
      name.all isLetter = true ∧ name ∉ lexicon.operators ∧
        (name ∈ lexicon.aggregators → name ∉ lexicon.functions) := by
    decide +kernel
  exact (hnames name h).imp_left List.all_eq_true.1

/-- A name without spaces is written without spaces. -/
theorem space_not_mem_of_lower (hname : lower text ∈ lexicon.names) (hspace : ' ' ∉ lower text) :
    ' ' ∉ text :=
  (lowersTo_of_mem_names hname).not_mem_of_fixed (by decide) hspace

theorem space_not_mem_of_letters {name : List Char} (h : ∀ c ∈ name, isLetter c = true) :
    ' ' ∉ name :=
  fun hmem => absurd (h ' ' hmem) (by decide)

/-- A printed token is read where nothing but a space and the next token follows. -/
theorem next?_of_printed (h : Printed kind text) (hrest : Separated kind text rest)
    (atStart : Bool) : lexicon.next? atStart (text ++ rest) = some (kind, text.length) := by
  cases h with
  | number l =>
    have hpoint : NumberFormat.isSeparator lexicon.decimalSeparator = true := by
      rw [decimalSeparator_lexicon]
      exact Amount.isSeparator_point
    have hnext := next?_chars hpoint hrest.endsNumber atStart l
    rwa [decimalSeparator_lexicon] at hnext
  | unit hunit =>
    refine next?_of_unit hunit ?_ atStart
    cases hword : isWord .unit text with
    | true =>
      have hplain := plain_of_isUnitWord (isUnitWord_of_mem_units hunit)
      have hspace : ' ' ∉ lower text := fun hmem => absurd (hplain ' ' hmem).blank (by decide)
      exact cuts_of_word hword
        (space_not_mem_of_lower (List.mem_append_right _ hunit) hspace) hrest
    | false =>
      obtain ⟨sign, more, rfl, hsign⟩ := (Printed.unit hunit).exists_opener hword
      simp only [isWord, Bool.not_eq_false', List.any_eq_true, beq_iff_eq] at hword
      obtain ⟨other, -, heq⟩ := hword
      cases heq
      exact cuts_of_sign hsign hrest
  | @operator sign hsign =>
    have hopener : sign ∈ openers := mem_openers_of_mem_signs (List.mem_append_right _ hsign)
    obtain ⟨hname, -⟩ := operators_symbol sign hsign
    obtain ⟨hplain, -⟩ := plain_of_mem_symbols sign hsign
    have hself : lower [sign] = [sign] :=
      LowersTo.lower_eq (.cons ⟨hplain.sigma, hplain.lower⟩ .nil)
    have hclass : lower [sign] ∈ NameClass.operator.ofLexicon lexicon := by
      rw [hself, ofLexicon_operator]
      exact hname
    refine next?_of_name hclass (.inr ⟨sign, hself⟩) (fun earlier hlt => ?_)
      (cuts_of_sign hopener hrest) atStart
    cases earlier <;> exact absurd hlt (by decide)
  | openParen | closeParen | semicolon => cases atStart <;> rfl
  | function hfunction =>
    obtain ⟨hletters, hoperators, -⟩ := letters_of_mem_calls (List.mem_append_left _ hfunction)
    have hname : lower text ∈ NameClass.function.ofLexicon lexicon :=
      ofLexicon_function ▸ hfunction
    have hspace : ' ' ∉ text := space_not_mem_of_lower (mem_names_of_mem_ofLexicon hname)
      (space_not_mem_of_letters hletters)
    refine next?_of_name hname (.inl hletters) (fun earlier hlt => ?_)
      (cuts_of_word rfl hspace hrest) atStart
    cases earlier with
    | operator => exact ofLexicon_operator ▸ hoperators
    | function | aggregator | unit => exact absurd hlt (by decide)
  | aggregator haggregator =>
    obtain ⟨hletters, hoperators, hfunctions⟩ :=
      letters_of_mem_calls (List.mem_append_right _ haggregator)
    have hname : lower text ∈ NameClass.aggregator.ofLexicon lexicon :=
      ofLexicon_aggregator ▸ haggregator
    have hspace : ' ' ∉ text := space_not_mem_of_lower (mem_names_of_mem_ofLexicon hname)
      (space_not_mem_of_letters hletters)
    refine next?_of_name hname (.inl hletters) (fun earlier hlt => ?_)
      (cuts_of_word rfl hspace hrest) atStart
    cases earlier with
    | operator => exact ofLexicon_operator ▸ hoperators
    | function => exact ofLexicon_function ▸ hfunctions haggregator
    | aggregator | unit => exact absurd hlt (by decide)
  | identifier hfree =>
    have hspace : ' ' ∉ text := fun hmem =>
      absurd (isBlank_of_isWordChar (hfree.chars _ hmem)) (by decide)
    exact next?_of_freeWord hfree (cuts_of_word rfl hspace hrest) atStart

theorem startsWord_of_mem_names (h : lower text ∈ lexicon.names) : StartsWord text := by
  have hlowers := lowersTo_of_mem_names h
  have hplain := plain_of_mem_names h
  generalize lower text = name at hlowers h hplain
  cases hlowers with
  | nil => exact absurd h nil_not_mem_names
  | @cons x y others lowered hhead _ =>
    exact ⟨x, others, rfl, isBlank_of_lowerChar hhead.2 (hplain y rfl).blank⟩

theorem Printed.startsWord (h : Printed kind text) : StartsWord text := by
  cases hword : isWord kind text with
  | false =>
    obtain ⟨c, more, rfl, hc⟩ := h.exists_opener hword
    exact ⟨c, more, rfl, (lowerChar_of_mem_openers c hc).2.2⟩
  | true =>
    cases h with
    | number | operator | openParen | closeParen | semicolon => cases hword
    | unit hunit => exact startsWord_of_mem_names (List.mem_append_right _ hunit)
    | function hfunction =>
      exact startsWord_of_mem_names
        (mem_names_of_mem_ofLexicon (C := .function) (ofLexicon_function ▸ hfunction))
    | aggregator haggregator =>
      exact startsWord_of_mem_names
        (mem_names_of_mem_ofLexicon (C := .aggregator) (ofLexicon_aggregator ▸ haggregator))
    | identifier hfree => exact hfree.startsWord

/-! ## All tokens -/

/-- The tokens as they stand when they are printed from a byte offset on, with a space between. -/
def placed (start : Nat) : List Token → List Token
  | [] => []
  | t :: tokens => { t with offset := start } :: placed (start + t.text.utf8ByteSize + 1) tokens

/-- What is printed of the tokens after the first one. -/
def spaced (tokens : List Token) : List Char :=
  tokens.flatMap fun t => ' ' :: t.text.toList

/-- Two tokens of which one may stand after the other: not both are words. -/
def Apart (a b : Token) : Prop :=
  isWord a.kind a.text.toList = true → isWord b.kind b.text.toList = false

theorem separated_spaced {t : Token} {tokens : List Token}
    (hprinted : ∀ u ∈ tokens, Printed u.kind u.text.toList)
    (hapart : (t :: tokens).IsChain Apart) :
    Separated t.kind t.text.toList (spaced tokens) := by
  cases hapart with
  | singleton => exact .inl rfl
  | @cons_cons _ u tokens hpair _ =>
    have hu : Printed u.kind u.text.toList := hprinted u (List.mem_cons_self ..)
    obtain ⟨c, more, hchars, -⟩ := hu.startsWord
    refine .inr ⟨c, more ++ spaced tokens, ?_, fun hword => ?_⟩
    · rw [spaced, List.flatMap_cons, hchars]
      rfl
    · obtain ⟨d, others, hopener, hd⟩ := hu.exists_opener (hpair hword)
      rw [hchars] at hopener
      rwa [(List.cons.inj hopener).1]

/-- One printed token is read, after a space as at the start of the line. -/
theorem scan_one {t : Token} (ht : Printed t.kind t.text.toList)
    (hrest : Separated t.kind t.text.toList rest) {gap : List Char} (hgap : gap = [] ∨ gap = [' '])
    (start : Nat) (atStart : Bool) :
    lexicon.scan start atStart (gap ++ (t.text.toList ++ rest)) =
      let scanned := lexicon.scan (start + byteLength gap + t.text.utf8ByteSize) false rest
      ({ t with offset := start + byteLength gap } :: scanned.1, scanned.2) := by
  have hblank : ∀ c ∈ gap, isBlank c = true := by
    rcases hgap with rfl | rfl
    · simp
    · exact List.all_eq_true.1 (by decide)
  have htrim : trimStart (gap ++ (t.text.toList ++ rest)) = t.text.toList ++ rest := by
    rw [trimStart, List.dropWhile_append_of_pos hblank]
    exact ht.startsWord.trimStart_append rest
  have htake : (gap ++ (t.text.toList ++ rest)).takeWhile isBlank = gap := by
    obtain ⟨c, more, hchars, hc⟩ := ht.startsWord
    rw [List.takeWhile_append_of_pos hblank, hchars, List.cons_append,
      List.takeWhile_cons_of_neg (by simp [hc]), List.append_nil]
  rw [scan_eq_of_token ht.startsWord.ne_nil htrim (next?_of_printed ht hrest atStart), htake,
    String.ofList_toList, utf8ByteSize_eq]

/-- What is printed is read as what was printed, after a space as at the start of the line. -/
theorem scan_printed {t : Token} {tokens : List Token}
    (hprinted : ∀ u ∈ t :: tokens, Printed u.kind u.text.toList)
    (hapart : (t :: tokens).IsChain Apart) {gap : List Char} (hgap : gap = [] ∨ gap = [' '])
    (start : Nat) (atStart : Bool) :
    lexicon.scan start atStart (gap ++ (t.text.toList ++ spaced tokens)) =
      (placed (start + byteLength gap) (t :: tokens), none) := by
  obtain ⟨ht, hothers⟩ := List.forall_mem_cons.1 hprinted
  rw [scan_one ht (separated_spaced hothers hapart) hgap]
  -- each token but the first one stands after a space
  induction tokens generalizing t gap start atStart with
  | nil =>
    rw [spaced, List.flatMap_nil, scan_of_blank rfl]
    rfl
  | cons u tokens ih =>
    obtain ⟨hu, hmore⟩ := List.forall_mem_cons.1 hothers
    have hrest : (u :: tokens).IsChain Apart := hapart.tail
    have hspaced : spaced (u :: tokens) = [' '] ++ (u.text.toList ++ spaced tokens) := rfl
    rw [hspaced, scan_one hu (separated_spaced hmore hrest) (.inr rfl),
      ih hothers hrest (.inr rfl) _ false hu hmore]
    rfl

theorem toList_intercalate_space (first : Token) (others : List Token) :
    (" ".intercalate ((first :: others).map (·.text))).toList =
      first.text.toList ++ spaced others := by
  rw [List.map_cons, toList_intercalate_cons, List.flatMap_map]
  rfl

/--
In the standard vocabulary a line of printed tokens with a space between any two, of which no two
words are neighbours, is read as these tokens, each where it stands in the line.
-/
theorem lex_intercalate {tokens : List Token}
    (hprinted : ∀ t ∈ tokens, Printed t.kind t.text.toList) (hapart : tokens.IsChain Apart) :
    lexicon.lex (" ".intercalate (tokens.map (·.text))) = .ok (placed 0 tokens) := by
  rw [lex_eq_ok]
  cases tokens with
  | nil => exact scan_of_blank rfl
  | cons first others =>
    rw [toList_intercalate_space]
    exact scan_printed hprinted hapart (.inl rfl) 0 true

/-- An amount in capitals, a product with a free word and a unit of a sign. -/
def halfWay : List Token :=
  [⟨.number, "1.5", 0⟩, ⟨.unit, "KM", 0⟩, ⟨.operator, "*", 0⟩, ⟨.openParen, "(", 0⟩,
    ⟨.identifier, "größe", 0⟩, ⟨.closeParen, ")", 0⟩, ⟨.unit, "€", 0⟩]

/-- It is read with the letters of two bytes counted. -/
theorem lex_intercalate_halfWay :
    (∀ t ∈ halfWay, Printed t.kind t.text.toList) ∧ halfWay.IsChain Apart ∧
      lexicon.lex "1.5 KM * ( größe ) €" =
        .ok [⟨.number, "1.5", 0⟩, ⟨.unit, "KM", 4⟩, ⟨.operator, "*", 7⟩, ⟨.openParen, "(", 9⟩,
          ⟨.identifier, "größe", 11⟩, ⟨.closeParen, ")", 19⟩, ⟨.unit, "€", 21⟩] := by
  have hnumber : Printed .number "1.5".toList :=
    .number ⟨['1'], ['5'], List.all_eq_true.1 (by decide), by decide⟩
  have hkm : Printed .unit "KM".toList :=
    printed_of_listed "km" (by decide +kernel) (by decide +kernel)
  have heuro : Printed .unit "€".toList :=
    printed_of_listed "€" (by decide +kernel) (by decide +kernel)
  have hfree : lexicon.FreeWord "größe".toList :=
    freeWord_of_not_isUnitWord (by decide) (List.all_eq_true.1 (by decide +kernel))
      (by decide +kernel) (by decide +kernel)
  have hprinted : ∀ t ∈ halfWay, Printed t.kind t.text.toList := by
    simp only [halfWay, List.forall_mem_cons]
    exact ⟨hnumber, hkm, .operator (by decide), .openParen, .identifier hfree, .closeParen, heuro,
      fun _ h => nomatch h⟩
  have hapart : halfWay.IsChain Apart := by
    unfold halfWay Apart
    decide +kernel
  exact ⟨hprinted, hapart, lex_intercalate hprinted hapart⟩

end Standard

end LineCalc
