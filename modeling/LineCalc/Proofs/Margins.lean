import LineCalc.Proofs.LetterCase
import LineCalc.Proofs.NameTokens
import LineCalc.Proofs.ReadBack

/-!
# White space around a line

Where no name ends with white space, a line is read as it is read between any white space: no token
reaches into what follows, and what stands before moves the tokens and nothing else. A comment takes
the white space after it in, but nothing depends on what a comment says.

* **`Lexicon.ends_of_blank`**: no token goes on into white space.
* **`Lexicon.toOption_lex_margins`**: the tokens of a line between white space.
* **`Calculator.case_and_margins_immaterial`**: neither the case of letters nor the white space
  around a line matters.
-/

namespace LineCalc

open Text

theorem Token.Similar.canonical_eq {s t : Token} (h : s.Similar t) : s.canonical = t.canonical := by
  simp only [Token.canonical, Token.spelling, h.1, h.2]

theorem map_canonical_of_similar {tokens others : List Token}
    (h : List.Forall₂ Token.Similar tokens others) :
    tokens.map Token.canonical = others.map Token.canonical := by
  rw [← List.forall₂_eq_eq_eq, List.forall₂_map_left_iff, List.forall₂_map_right_iff]
  exact h.imp fun _ _ => Token.Similar.canonical_eq

namespace Lexicon

/-! ## White space after a text -/

/-- No name ends with white space, and white space is no separator. -/
structure Trimmed (lx : Lexicon) : Prop where
  last : ∀ name ∈ lx.names, ∀ c ∈ name.getLast?, isBlank c = false
  separator : isBlank lx.decimalSeparator = false

/-- The lowercase of a text ends with that of its last character, where that is no sigma. -/
theorem exists_lowerAfter_concat {b : Char} (hb : b ≠ 'Σ') (cs before : List Char) :
    ∃ front, lowerAfter before (cs ++ [b]) = front ++ lowerChar b := by
  induction cs generalizing before with
  | nil => exact ⟨[], by simp [lowerAfter, hb]⟩
  | cons c cs ih =>
    obtain ⟨front, hfront⟩ := ih (c :: before)
    rw [List.cons_append, lowerAfter, hfront, ← List.append_assoc]
    exact ⟨_, rfl⟩

variable {lx : Lexicon} {tail cs : List Char}

/-- A name that does not end with white space does not reach into white space. -/
theorem not_admits_blank {name : List Char} (hlast : ∀ c ∈ name.getLast?, isBlank c = false)
    (htail : ∀ c ∈ tail, isBlank c = true) (hlength : cs.length < name.length) :
    lx.admits (cs ++ tail) name = false := by
  rw [Bool.eq_false_iff]
  intro hadmits
  simp only [admits, Bool.and_eq_true, beq_iff_eq] at hadmits
  obtain ⟨⟨hsize, hlower⟩, -⟩ := hadmits
  rw [List.take_append, List.take_of_length_le (Nat.le_of_lt hlength)] at hsize hlower
  rcases List.eq_nil_or_concat' (tail.take (name.length - cs.length)) with
    hnil | ⟨front, b, hconcat⟩
  · rw [hnil, List.append_nil] at hsize
    omega
  · -- the text that is taken ends with white space, and so does its lowercase
    have hb : isBlank b = true := htail b (List.mem_of_mem_take (by rw [hconcat]; simp))
    have hself : lowerChar b = [b] := lowerChar_of_uncased (by decide +kernel) hb
    have hsigma : b ≠ 'Σ' := by
      rintro rfl
      cases hb
    obtain ⟨lowered, hlowered⟩ := exists_lowerAfter_concat hsigma (cs ++ front) []
    rw [hconcat, ← List.append_assoc, lower, hlowered, hself] at hlower
    have hblank : isBlank b = false := hlast b (by rw [← hlower]; simp)
    rw [hb] at hblank
    cases hblank

/-- No token goes on into white space. -/
theorem ends_of_blank (hlx : lx.Trimmed) (htail : ∀ c ∈ tail, isBlank c = true) : lx.Ends tail where
  boundary := by
    cases tail with
    | nil => rfl
    | cons c rest => simp [isBoundary, htail c (List.mem_cons_self ..)]
  digit := by
    intro c hc
    exact Intervals.not_covers_of_apart (by decide +kernel) (htail c (List.mem_of_mem_head? hc))
  mark := by
    intro c hc hmem
    have hmarks : ∀ d ∈ ['-', ':', lx.decimalSeparator], isBlank d = false := by
      simp only [List.forall_mem_cons]
      exact ⟨by decide, by decide, hlx.separator, by simp⟩
    have hblank : isBlank c = false := hmarks c hmem
    rw [htail c (List.mem_of_mem_head? hc)] at hblank
    cases hblank
  word := by
    intro c hc
    rw [Bool.eq_false_iff]
    intro hword
    have hblank := isBlank_of_isWordChar hword
    rw [htail c (List.mem_of_mem_head? hc)] at hblank
    cases hblank
  names := fun name hname _ => not_admits_blank (hlx.last name hname) htail

/-! ## White space around a line -/

/-- White space before a text moves its tokens. -/
theorem scan_blank_append {gap : List Char} (hgap : ∀ c ∈ gap, isBlank c = true) (offset : Nat)
    (atStart : Bool) (cs : List Char) :
    lx.scan offset atStart (gap ++ cs) = lx.scan (offset + byteLength gap) atStart cs := by
  have htrim : trimStart (gap ++ cs) = trimStart cs := List.dropWhile_append_of_pos hgap
  have htake : (gap ++ cs).takeWhile isBlank = gap ++ cs.takeWhile isBlank :=
    List.takeWhile_append_of_pos hgap
  cases hcs : trimStart cs with
  | nil => rw [scan_of_blank (htrim.trans hcs), scan_of_blank hcs]
  | cons c rest =>
    rw [scan_of_cons (htrim.trans hcs), scan_of_cons hcs, htake, byteLength_append, Nat.add_assoc]

/-- Only a comment is read in another way at the start of the line. -/
theorem scan_atStart (h : (trimStart cs).head? ≠ some '#') (offset : Nat) :
    lx.scan offset true cs = lx.scan offset false cs := by
  cases hcs : trimStart cs with
  | nil => rw [scan_of_blank hcs, scan_of_blank hcs]
  | cons c rest =>
    have hc : c ≠ '#' := by simpa [hcs] using h
    rw [scan_of_cons hcs, scan_of_cons hcs, next?_atStart hc]

/-- The tokens of a line, if it is read to its end. -/
theorem toOption_lex (lx : Lexicon) (line : String) :
    (lx.lex line).toOption =
      match lx.scan 0 true line.toList with
      | (tokens, none) => some tokens
      | (_, some _) => none := by
  cases hlex : lx.lex line with
  | ok tokens =>
    rw [lex_eq_ok.1 hlex]
    rfl
  | error e =>
    split
    · rename_i tokens hscan
      rw [lex_eq_ok.2 hscan] at hlex
      cases hlex
    · rfl

/-- A line that is no comment is read as it is read between white space. -/
theorem map_canonical_lex_margins (hlx : lx.Trimmed) {line before after : String}
    (hcomment : (trimStart line.toList).head? ≠ some '#')
    (hbefore : ∀ c ∈ before.toList, isBlank c = true)
    (hafter : ∀ c ∈ after.toList, isBlank c = true) :
    (lx.lex (before ++ line ++ after)).toOption.map (List.map Token.canonical) =
      (lx.lex line).toOption.map (List.map Token.canonical) := by
  have hblank : trimStart after.toList = [] := List.dropWhile_eq_nil_iff.2 hafter
  have hstart : (trimStart (line.toList ++ after.toList)).head? ≠ some '#' := by
    cases hline : trimStart line.toList with
    | nil => simp [trimStart_append_of_nil hline, hblank]
    | cons c rest => simpa [trimStart_append_of_cons hline, hline] using hcomment
  rw [toOption_lex, toOption_lex, String.toList_append, String.toList_append, List.append_assoc,
    scan_blank_append hbefore, scan_atStart hstart]
  have hread := @scan_append lx _ (ends_of_blank hlx hafter) 0 true line.toList (fun _ => hcomment)
    (0 + byteLength before.toList)
  obtain ⟨similar, hsimilar, hscan⟩ := hread
  generalize lx.scan 0 true line.toList = scanned at hsimilar hscan
  obtain ⟨tokens, _ | unread⟩ := scanned
  · -- after the last token nothing but white space is left
    obtain ⟨gap, position, hgap, hscan⟩ := hscan
    have hend : lx.scan position false (gap ++ after.toList) = ([], none) :=
      scan_of_blank (by rw [trimStart_append_of_nil hgap, hblank])
    rw [hscan, hend, List.append_nil]
    exact congrArg some (map_canonical_of_similar hsimilar).symm
  · dsimp only at hscan
    rw [hscan]

/-- The tokens of a line between white space are those of the line, but for what a comment says. -/
theorem toOption_lex_margins (hlx : lx.Trimmed) (line : String) {before after : String}
    (hbefore : ∀ c ∈ before.toList, isBlank c = true)
    (hafter : ∀ c ∈ after.toList, isBlank c = true) :
    (lx.lex (before ++ line ++ after)).toOption.map (List.map Token.canonical) =
      (lx.lex line).toOption.map (List.map Token.canonical) := by
  by_cases hcomment : (trimStart line.toList).head? = some '#'
  · have htogether : (trimStart (before ++ line ++ after).toList).head? = some '#' := by
      obtain ⟨rest, hline⟩ := List.head?_eq_some_iff.1 hcomment
      rw [String.toList_append, String.toList_append, List.append_assoc, trimStart,
        List.dropWhile_append_of_pos hbefore, ← trimStart, trimStart_append_of_cons hline]
      rfl
    obtain ⟨t, ht, hlex⟩ := @Calculator.lex_of_comment lx _ hcomment
    obtain ⟨s, hs, hlex'⟩ := @Calculator.lex_of_comment lx _ htogether
    rw [hlex, hlex']
    simp [Except.toOption, Token.canonical, Token.spelling, ht, hs]
  · exact map_canonical_lex_margins hlx hcomment hbefore hafter

end Lexicon

/-! ## The standard vocabulary -/

namespace Standard

open Lexicon

theorem trimmed_lexicon {separator : Char} (h : NumberFormat.isSeparator separator = true) :
    (lexicon.withSeparator separator).Trimmed where
  last := by
    intro name hname
    rw [names_withSeparator] at hname
    exact isBlank_last_of_mem_names hname
  separator := by
    simp only [NumberFormat.isSeparator, Bool.and_eq_true, Bool.not_eq_true'] at h
    rw [decimalSeparator_withSeparator]
    exact h.1.2

end Standard

namespace Calculator

/-- With the standard vocabulary and any separators, white space around a line does not matter. -/
theorem evaluate_margins {separator : Char} {grouping : Option Char} {config : Config}
    (hbuild :
      ((Standard.draft.withDecimalSeparator separator).withGroupingSeparator grouping).build =
        .ok config)
    {before after : String} (hbefore : ∀ c ∈ before.toList, isBlank c = true)
    (hafter : ∀ c ∈ after.toList, isBlank c = true) (line : String) (env : Environment) :
    (ofConfig config).evaluate env (before ++ line ++ after) =
      (ofConfig config).evaluate env line := by
  have hdraft := Draft.build_eq_ok_iff.1 hbuild
  have hlexicon : (ofConfig config).lexicon = Standard.lexicon.withSeparator separator :=
    @Lexicon.ofConfig_withSeparators config .standard separator grouping hdraft
  have hseparator : NumberFormat.isSeparator separator = true := by
    have hformat : ∀ d : Draft, ((d.withDecimalSeparator separator).withGroupingSeparator
        grouping).format.decimalSeparator = separator := fun _ => rfl
    have haccepted := config.acceptable.1
    rwa [hdraft, hformat] at haccepted
  have htrimmed : (ofConfig config).lexicon.Trimmed := by
    rw [hlexicon]
    exact Standard.trimmed_lexicon hseparator
  exact evaluate_congr
    (toOption_compile_congr (Lexicon.toOption_lex_margins htrimmed line hbefore hafter)) env

/-- Two lines are read alike and, if there are no free words in them, have the same plan. -/
structure CaseImmaterial (c : Calculator) (a b : String) : Prop where
  ends : (c.lexicon.read? a).isSome = (c.lexicon.read? b).isSome
  alike : ReadAlike a b (c.lexicon.lex a) (c.lexicon.lex b)
  plan : (∀ tokens, c.lexicon.lex a = .ok tokens → ∀ t ∈ tokens, t.kind ≠ .identifier) →
    (c.compile a).toOption = (c.compile b).toOption

/--
In every vocabulary the case of ASCII letters does not matter, and in the standard vocabulary, with
any separators, the white space around a line does not.
-/
theorem case_and_margins_immaterial :
    (∀ (c : Calculator) (a b : String), a.toLower = b.toLower → c.CaseImmaterial a b) ∧
      ∀ (separator : Char) (grouping : Option Char) (config : Config),
        ((Standard.draft.withDecimalSeparator separator).withGroupingSeparator grouping).build =
          .ok config →
        ∀ before line after : String, (∀ c ∈ before.toList, isBlank c = true) →
          (∀ c ∈ after.toList, isBlank c = true) →
          ∀ env, (ofConfig config).evaluate env (before ++ line ++ after) =
            (ofConfig config).evaluate env line := by
  constructor
  · intro c a b hab
    obtain ⟨hends, halike⟩ := Lexicon.readAlike c.caseBlind hab
    exact ⟨hends, halike, c.toOption_compile_of_toLower_eq hab⟩
  · intro separator grouping config hbuild before line after hbefore hafter env
    exact evaluate_margins hbuild hbefore hafter line env

/-- A vocabulary of one operator, which is a word. -/
def plusOnly : Config where
  toDraft := Draft.addOperator {} (Standard.binary "plus" 2 (.arithmetic .add))
  acceptable := by decide

/-- The standard vocabulary with a comma before fractions and points between groups. -/
def commasAndPoints : Config where
  toDraft := (Standard.draft.withDecimalSeparator ',').withGroupingSeparator (some '.')
  acceptable := by
    have hformat :
        ((Standard.draft.withDecimalSeparator ',').withGroupingSeparator (some '.')).format =
          { Standard.draft.format with
            decimalSeparator := ',', groupingSeparator := some '.' } := rfl
    rw [hformat, Standard.format_draft]
    decide

/-- A sum in capitals has the plan of the sum, and white space around an amount does nothing. -/
theorem case_and_margins_immaterial_sum :
    "1 PLUS 2".toLower = "1 plus 2".toLower ∧
      (ofConfig plusOnly).lexicon.lex "1 PLUS 2" =
        .ok [⟨.number, "1", 0⟩, ⟨.operator, "PLUS", 2⟩, ⟨.number, "2", 7⟩] ∧
      ((ofConfig plusOnly).compile "1 PLUS 2").toOption =
        ((ofConfig plusOnly).compile "1 plus 2").toOption ∧
      ((Standard.draft.withDecimalSeparator ',').withGroupingSeparator (some '.')).build =
        .ok commasAndPoints ∧
      (ofConfig commasAndPoints).evaluate (.fresh default) "\t 1,5 km\u3000" =
        (ofConfig commasAndPoints).evaluate (.fresh default) "1,5 km" := by
  have hcase : "1 PLUS 2".toLower = "1 plus 2".toLower := by
    rw [← String.toList_inj, Lexicon.toList_toLower, Lexicon.toList_toLower]
    decide
  have hlex : (ofConfig plusOnly).lexicon.lex "1 PLUS 2" =
      .ok [⟨.number, "1", 0⟩, ⟨.operator, "PLUS", 2⟩, ⟨.number, "2", 7⟩] :=
    Lexicon.lex_eq_ok.2 (by decide +kernel)
  have hdraft : commasAndPoints.toDraft =
      (Standard.draft.withDecimalSeparator ',').withGroupingSeparator (some '.') := by
    simp only [commasAndPoints]
  have hbuild : ((Standard.draft.withDecimalSeparator ',').withGroupingSeparator (some '.')).build =
      .ok commasAndPoints := Draft.build_eq_ok_iff.2 hdraft
  have hline : "\t " ++ "1,5 km" ++ "\u3000" = "\t 1,5 km\u3000" := by decide +kernel
  refine ⟨hcase, hlex, ?_, hbuild, ?_⟩
  · refine (case_and_margins_immaterial.1 _ _ _ hcase).plan fun tokens htokens => ?_
    rw [hlex] at htokens
    cases htokens
    decide
  · rw [← hline]
    exact case_and_margins_immaterial.2 _ _ _ hbuild "\t " "1,5 km" "\u3000"
      (List.all_eq_true.1 (by decide)) (List.all_eq_true.1 (by decide)) (.fresh default)

end Calculator

end LineCalc
