import LineCalc.Proofs.ReadBack
import LineCalc.Proofs.TokenSpans

/-!
# Signs between digits

The decimal separator of a configuration can be any character that is told apart from digits, words,
white space and structure, and the signs of the operators are such characters too. Between two runs
of digits a sign is an operator with a number on either side, unless it is the decimal separator
itself: a number is looked for before an operator, and takes the sign and both runs.

* **`Draft.exists_build_of_symbol`**: the signs are accepted as decimal separators.
* **`Lexicon.next?_before_mark`**: a number ends before a mark that is not its separator.
* **`Lexicon.lex_digits_mark_digits`**, **`Lexicon.lex_literal`**: digits around an operator, and
  around the separator.
* **`Standard.lex_between_digits`**: how a sign between digits is read, for each accepted separator.
-/

namespace LineCalc

open Text NumberFormat

namespace Lexicon

variable {lx : Lexicon}

/-! ## Digits -/

theorem startsWord_digits {digits : List Char} (hne : digits ≠ [])
    (h : ∀ c ∈ digits, c.isDigit = true) : StartsWord digits := by
  obtain ⟨c, more, rfl⟩ := List.exists_cons_of_ne_nil hne
  exact ⟨c, more, rfl, (figure_of_isDigit (h c (List.mem_cons_self ..))).blank⟩

/-- A digit takes one byte. -/
theorem byteLength_digits {digits : List Char} (h : ∀ c ∈ digits, c.isDigit = true) :
    byteLength digits = digits.length := by
  induction digits with
  | nil => rfl
  | cons c digits ih =>
    obtain ⟨hc, hdigits⟩ := List.forall_mem_cons.1 h
    have hsize : c.utf8Size = 1 := by
      have hhigh : c.toNat ≤ 57 := (Char.isDigit_iff_toNat.1 hc).2
      rw [Char.utf8Size_eq_one_iff, UInt32.le_iff_toNat_le]
      show c.toNat ≤ 127
      omega
    rw [byteLength, hsize, ih hdigits, List.length_cons, Nat.add_comm]

/-! ## Numbers before a mark -/

/-- What would be a literal with another separator is a number up to the mark. -/
theorem next?_before_mark {mark : Char} (hmark : isSeparator mark = true)
    (hother : mark ≠ lx.decimalSeparator) {l : Literal} (hwhole : l.whole ≠ [])
    (hfraction : l.fraction ≠ []) (atStart : Bool) :
    lx.next? atStart (l.whole ++ mark :: l.fraction) = some (.number, l.whole.length) := by
  have hchars : l.whole ++ mark :: l.fraction = l.chars mark ++ [] := by
    rw [Literal.chars, if_neg hfraction, List.append_nil]
  -- date and time do not know of separators
  have hdate : dateLength? (l.whole ++ mark :: l.fraction) = none := by
    rw [hchars]
    exact dateLength?_chars hmark (.inl rfl) l
  have htime : timeLength? (l.whole ++ mark :: l.fraction) = none := by
    rw [hchars]
    exact timeLength?_chars hmark (.inl rfl) l
  have hcount : digitCount (l.whole ++ mark :: l.fraction) = l.whole.length := by
    apply digitCount_append_of_noDigit (fun c hc => (l.figure_of_mem_whole c hc).digit)
    intro c hc
    cases hc
    exact (ne_of_isSeparator hmark).2.1
  have hnumber : numberLength? lx.decimalSeparator (l.whole ++ mark :: l.fraction) =
      some l.whole.length := by
    have hpos : 0 < l.whole.length := List.length_pos_iff.2 hwhole
    simp only [numberLength?, hcount, List.drop_left, fractionLength, hother, false_and, if_false]
    rw [if_neg (by omega)]
    rfl
  have hstart : ∀ c ∈ (l.whole ++ mark :: l.fraction).head?, c ∉ structural := by
    obtain ⟨c, more, hcons, -, hstructural⟩ := not_structural_chars hmark l
    rw [hchars, List.append_nil, hcons]
    rintro _ ⟨⟩
    exact hstructural
  exact next?_of_numberLength? hstart hdate htime hnumber atStart

/-- A literal is a line of one number. -/
theorem lex_literal (hseparator : isSeparator lx.decimalSeparator = true) (l : Literal) :
    lx.lex (String.ofList (l.chars lx.decimalSeparator)) =
      .ok [⟨.number, String.ofList (l.chars lx.decimalSeparator), 0⟩] := by
  have hnext := next?_chars hseparator (.inl rfl) true l
  have hstart := startsWord_chars hseparator l
  rw [List.append_nil] at hnext
  rw [lex_eq_single_iff (by rwa [String.toList_ofList]), String.toList_ofList]
  exact hnext

/-- With an operator for the mark, digits on either side of it are two numbers. -/
theorem lex_digits_mark_digits {mark : Char} (hseparator : isSeparator lx.decimalSeparator = true)
    (hmark : isSeparator mark = true) (hother : mark ≠ lx.decimalSeparator)
    (hoperator : ∀ rest, lx.next? false (mark :: rest) = some (.operator, 1)) {l : Literal}
    (hwhole : l.whole ≠ []) (hfraction : l.fraction ≠ []) :
    lx.lex (String.ofList (l.chars mark)) =
      .ok [⟨.number, String.ofList l.whole, 0⟩, ⟨.operator, String.ofList [mark], l.whole.length⟩,
        ⟨.number, String.ofList l.fraction, l.whole.length + byteLength [mark]⟩] := by
  have hwholeDigits : ∀ c ∈ l.whole, c.isDigit = true :=
    fun c hc => l.digits c (List.mem_append_left _ hc)
  have hfractionDigits : ∀ c ∈ l.fraction, c.isDigit = true :=
    fun c hc => l.digits c (List.mem_append_right _ hc)
  have hleft := scan_of_startsWord (startsWord_digits hwhole hwholeDigits)
    (next?_before_mark hmark hother hwhole hfraction true) 0
  have hsign := scan_of_startsWord ⟨mark, [], rfl, (ne_of_isSeparator hmark).1⟩
    (hoperator l.fraction) l.whole.length
  -- the digits after the mark are a literal of their own
  let right : Literal :=
    ⟨l.fraction, [], by rwa [List.append_nil], by rwa [List.append_nil]⟩
  have hchars : right.chars lx.decimalSeparator = l.fraction := List.append_nil _
  have hright := scan_of_startsWord (startsWord_chars hseparator right)
    (next?_chars hseparator (.inl rfl) false right) (l.whole.length + byteLength [mark])
  have hend : ∀ start, lx.scan start false [] = ([], none) := fun _ => scan_of_blank rfl
  rw [hchars, List.append_nil, hend] at hright
  rw [byteLength_digits hwholeDigits, Nat.zero_add] at hleft
  rw [List.singleton_append] at hsign
  rw [lex_eq_ok, String.toList_ofList, Literal.chars, if_neg hfraction, hleft, hsign, hright]

end Lexicon

/-! ## The signs of the standard vocabulary -/

theorem Standard.isSeparator_of_mem_symbols : ∀ sign ∈ symbols, isSeparator sign = true :=
  List.all_iff_forall_prop.1 (by decide +kernel)

/-- Nothing keeps the sign of an operator from being the decimal separator. -/
theorem Draft.exists_build_of_symbol (d : Draft) {sign : Char} (hsign : sign ∈ Standard.symbols) :
    ∃ config, ((d.withDecimalSeparator sign).withGroupingSeparator none).build = .ok config := by
  have hacceptable : ((d.withDecimalSeparator sign).withGroupingSeparator none).format.Acceptable :=
    ⟨Standard.isSeparator_of_mem_symbols sign hsign, by simp [withGroupingSeparator]⟩
  exact ⟨⟨_, hacceptable⟩, build_eq_ok_iff.2 rfl⟩

namespace Standard

open Lexicon

theorem byteLength_of_mem_symbols : ∀ sign ∈ symbols, byteLength [sign] = 1 :=
  List.all_iff_forall_prop.1 (by decide +kernel)

variable {separator sign : Char} {grouping : Option Char} {config : Config}

/--
Between two runs of digits, with any decimal separator that a configuration accepts, a sign is an
operator with a number on either side of it, unless it is the separator: then all is one number.
-/
theorem lex_between_digits
    (hbuild : ((draft.withDecimalSeparator separator).withGroupingSeparator grouping).build =
      .ok config)
    (hsign : sign ∈ symbols) {a b : List Char} (ha : a ≠ []) (hb : b ≠ [])
    (hdigits : ∀ c ∈ a ++ b, c.isDigit = true) :
    (ofConfig config).lex (String.ofList (a ++ sign :: b)) =
      .ok (if separator = sign then [⟨.number, String.ofList (a ++ sign :: b), 0⟩]
        else [⟨.number, String.ofList a, 0⟩, ⟨.operator, String.ofList [sign], a.length⟩,
          ⟨.number, String.ofList b, a.length + 1⟩]) := by
  have hconfig : config.toDraft =
      (Config.standard.toDraft.withDecimalSeparator separator).withGroupingSeparator grouping :=
    Draft.build_eq_ok_iff.1 hbuild
  have hlexicon : ofConfig config = lexicon.withSeparator separator :=
    ofConfig_withSeparators hconfig
  have hseparator : isSeparator separator = true := by
    have haccepted := config.acceptable.1
    rwa [hconfig] at haccepted
  have hoperator : separator ≠ sign → ∀ rest,
      (lexicon.withSeparator separator).next? false (sign :: rest) = some (.operator, 1) :=
    fun hother => next?_symbol hsign hother false
  have hdecimal := decimalSeparator_withSeparator lexicon separator
  let l : Literal := ⟨a, b, hdigits, List.append_ne_nil_of_left_ne_nil ha b⟩
  have hchars : ∀ mark, l.chars mark = a ++ mark :: b := fun _ => by rw [Literal.chars, if_neg hb]
  rw [hlexicon, ← hchars]
  -- nothing else of the vocabulary matters
  generalize lexicon.withSeparator separator = lx at hoperator hdecimal ⊢
  subst hdecimal
  split
  · rename_i hsame
    subst hsame
    exact lex_literal hseparator l
  · rename_i hother
    have hlex := lex_digits_mark_digits hseparator (isSeparator_of_mem_symbols sign hsign)
      (fun h => hother h.symm) (hoperator hother) (l := l) ha hb
    rwa [byteLength_of_mem_symbols sign hsign] at hlex

/-- With a hyphen for the decimal point `12+34` is a sum, and `12-34` is a single number. -/
theorem lex_between_digits_hyphen :
    ∃ config : Config,
      ((draft.withDecimalSeparator '-').withGroupingSeparator none).build = .ok config ∧
        (ofConfig config).lex "12+34" =
          .ok [⟨.number, "12", 0⟩, ⟨.operator, "+", 2⟩, ⟨.number, "34", 3⟩] ∧
        (ofConfig config).lex "12-34" = .ok [⟨.number, "12-34", 0⟩] := by
  have hplusSign : '+' ∈ symbols := by decide
  have hhyphenSign : '-' ∈ symbols := by decide
  obtain ⟨config, hbuild⟩ := draft.exists_build_of_symbol hhyphenSign
  have hdigits : ∀ c ∈ ['1', '2'] ++ ['3', '4'], c.isDigit = true :=
    List.all_eq_true.1 (by decide)
  have hplus := lex_between_digits hbuild hplusSign (by decide) (by decide) hdigits
  have hhyphen := lex_between_digits hbuild hhyphenSign (by decide) (by decide) hdigits
  rw [if_neg (by decide)] at hplus
  rw [if_pos rfl] at hhyphen
  exact ⟨config, hbuild, hplus, hhyphen⟩

end Standard

end LineCalc
