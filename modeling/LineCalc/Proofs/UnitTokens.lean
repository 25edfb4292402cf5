import LineCalc.Proofs.UnitNames

/-!
# Unit words in a line

A standard unit at the end of a line is read as that unit, in whatever case it is written: neither
the whole word nor its start can be taken for another name. The operators that ask for a unit are
read before it, although longer operators start like them.

* **`not_admits`**: no other name stands at the start of a unit word.
* **`next?_of_unitWord`**: the whole word is read as a unit.
* **`next?_of_keyword`**: the operator before it is read alone.
* **`closes_lexicon`**: no standard name holds a closing parenthesis.
-/

namespace LineCalc

open Text

/-! ## Other separators -/

namespace Lexicon

/-- The lexicon with another decimal separator. -/
def withSeparator (lx : Lexicon) (separator : Char) : Lexicon :=
  { lx with decimalSeparator := separator }

variable (lx : Lexicon) (separator : Char)

theorem withSeparator_self : lx.withSeparator lx.decimalSeparator = lx := rfl

theorem operators_withSeparator : (lx.withSeparator separator).operators = lx.operators := rfl

theorem functions_withSeparator : (lx.withSeparator separator).functions = lx.functions := rfl

theorem aggregators_withSeparator : (lx.withSeparator separator).aggregators = lx.aggregators := rfl

theorem units_withSeparator : (lx.withSeparator separator).units = lx.units := rfl

theorem names_withSeparator : (lx.withSeparator separator).names = lx.names := rfl

theorem decimalSeparator_withSeparator : (lx.withSeparator separator).decimalSeparator = separator :=
  rfl

/-- Names are found without regard to the separator. -/
theorem nameLength?_withSeparator (names : List (List Char)) (text : List Char) :
    (lx.withSeparator separator).nameLength? names text = lx.nameLength? names text := rfl

end Lexicon

namespace Standard

open Lexicon

/-! ## Parts of a unit word -/

theorem lowerChar_of_mem_delimiters : ∀ c ∈ lexicon.delimiters, lowerChar c = [c] :=
  List.all_iff_forall_prop.1 (by decide +kernel)

/-- A name without parts that could be names: it is made of letters, or it is a single character. -/
def Solid (name : List Char) : Prop :=
  (∀ c ∈ name, isLetter c = true) ∨ ∃ c, name = [c]

theorem solid_of_isUnitWord {name : List Char} (h : isUnitWord name = true) : Solid name := by
  rcases isUnitWord_iff.1 h with ⟨hletters, -⟩ | ⟨sign, -, rfl⟩
  · exact .inl hletters
  · exact .inr ⟨sign, rfl⟩

/-- No other name stands at the start of a text whose lowercase is such a name. -/
theorem not_admits {text name other : List Char} (h : LowersTo text name) (hsolid : Solid name)
    (hother : other ≠ name) (hnil : other ≠ []) : lexicon.admits text other = false := by
  rw [Bool.eq_false_iff]
  intro hadmits
  simp only [admits, Bool.and_eq_true, Bool.or_eq_true, Bool.not_eq_true', beq_iff_eq] at hadmits
  obtain ⟨⟨hlength, hlower⟩, hend⟩ := hadmits
  -- what is taken for the other name is the start of this one
  have hinitial : other = name.take other.length := by
    rw [← (h.take other.length).lower_eq, hlower]
  have hshort : other.length < name.length := by
    rw [← h.length_eq]
    rw [List.length_take] at hlength
    by_contra hge
    exact hother (by rw [hinitial, List.take_of_length_le (by rw [← h.length_eq]; omega)])
  rcases hsolid with hletters | ⟨c, rfl⟩
  · -- a letter follows, and letters end no word
    have hname : other.all isAlphabetic = true := by
      rw [List.all_eq_true]
      intro c hc
      rw [hinitial] at hc
      exact (plain_of_isLetter (hletters c (List.mem_of_mem_take hc))).2.1
    rw [hname] at hend
    have hboundary : lexicon.isBoundary (text.drop other.length) = true :=
      hend.resolve_left Bool.noConfusion
    have hrest := h.drop other.length
    rw [List.drop_eq_getElem_cons hshort] at hrest
    generalize text.drop other.length = rest at hrest hboundary
    cases hrest with
    | cons hhead _ =>
    obtain ⟨hplain, -, hdelimiter⟩ := plain_of_isLetter (hletters _ (List.getElem_mem hshort))
    simp only [isBoundary, Bool.or_eq_true, List.contains_iff_mem] at hboundary
    rcases hboundary with hblank | hmem
    · rw [isBlank_of_lowerChar hhead.2 hplain.blank] at hblank
      cases hblank
    · exact not_mem_of_lowerChar lowerChar_of_mem_delimiters hhead.2 hdelimiter hmem
  · -- a single character is too short to start with another name
    have hpositive := List.length_pos_iff.2 hnil
    rw [List.length_singleton] at hshort
    omega

/-! ## The first token -/

theorem decimalSeparator_lexicon : lexicon.decimalSeparator = '.' := by
  decide +kernel

theorem not_mem_others {name : List Char} (h : isUnitWord name = true) :
    name ∉ lexicon.operators ++ lexicon.functions ++ lexicon.aggregators := by
  have hsigns : ∀ c ∈ signs,
      [c] ∉ lexicon.operators ++ lexicon.functions ++ lexicon.aggregators :=
    List.all_iff_forall_prop.1 (by decide +kernel)
  rcases isUnitWord_iff.1 h with ⟨-, -, -, hothers⟩ | ⟨sign, hsign, rfl⟩
  · exact hothers
  · exact hsigns sign hsign

theorem not_nil_mem_others :
    [] ∉ lexicon.operators ++ lexicon.functions ++ lexicon.aggregators := by
  decide +kernel

theorem ne_nil_of_isUnitWord {name : List Char} (h : isUnitWord name = true) : name ≠ [] := by
  rintro rfl
  simp [isUnitWord, signs] at h

theorem head?_of_isUnitWord {name : List Char} (h : isUnitWord name = true) :
    name.head? ≠ some 'a' := by
  rcases isUnitWord_iff.1 h with ⟨-, -, hhead, -⟩ | ⟨sign, hsign, rfl⟩
  · exact hhead
  · rintro heq
    cases heq
    revert hsign
    decide

theorem nameLength?_of_unitWord {text name : List Char} {names : List (List Char)}
    (h : LowersTo text name) (hword : isUnitWord name = true)
    (hnames : ∀ other ∈ names, other ∈ lexicon.operators ++ lexicon.functions ++ lexicon.aggregators) :
    lexicon.nameLength? names text = none := by
  have hnone : names.find? (lexicon.admits text) = none := by
    rw [List.find?_eq_none]
    intro other hother
    have hne : other ≠ name := by
      rintro rfl
      exact not_mem_others hword (hnames other hother)
    have hnil : other ≠ [] := by
      rintro rfl
      exact not_nil_mem_others (hnames [] hother)
    rw [not_admits h (solid_of_isUnitWord hword) hne hnil]
    exact Bool.noConfusion
  rw [nameLength?, hnone, Option.map_none]

theorem find?_of_unique {α : Type} {p : α → Bool} {a : α} {l : List α} (hmem : a ∈ l)
    (ha : p a = true) (hothers : ∀ b ∈ l, b ≠ a → p b = false) : l.find? p = some a := by
  obtain ⟨b, hb⟩ := Option.isSome_iff_exists.1 (List.find?_isSome.2 ⟨a, hmem, ha⟩)
  by_contra hne
  have hba : b ≠ a := fun heq => hne (heq ▸ hb)
  have hfalse := hothers b (List.mem_of_find?_eq_some hb) hba
  rw [List.find?_some hb] at hfalse
  cases hfalse

theorem unitLength?_of_unitWord {text name : List Char} (h : LowersTo text name)
    (hword : isUnitWord name = true) (hmem : name ∈ lexicon.units) :
    lexicon.nameLength? lexicon.units text = some text.length := by
  have hadmits : lexicon.admits text name = true := by
    have htake : text.take name.length = text := List.take_of_length_le (Nat.le_of_eq h.length_eq)
    have hdrop : text.drop name.length = [] := List.drop_of_length_le (Nat.le_of_eq h.length_eq)
    simp [admits, htake, hdrop, h.lower_eq, h.length_eq, isBoundary]
  have hfind : lexicon.units.find? (lexicon.admits text) = some name := by
    refine find?_of_unique hmem hadmits fun other hother hne =>
      not_admits h (solid_of_isUnitWord hword) hne ?_
    exact ne_nil_of_isUnitWord (isUnitWord_of_mem_units hother)
  rw [nameLength?, hfind, Option.map_some, h.length_eq]

/-- A number starts with a digit, or with the separator and a digit. -/
theorem numberLength?_cons_of_ne {separator c : Char} (rest : List Char) (hdigit : isDigit c = false)
    (hne : c ≠ separator) : numberLength? separator (c :: rest) = none := by
  simp [numberLength?, digitCount, fractionLength, hdigit, hne]

theorem numberLength?_of_no_digit {cs : List Char} (h : ∀ c ∈ cs, isDigit c = false)
    (separator : Char) : numberLength? separator cs = none := by
  have hnone : ∀ {cs : List Char}, (∀ c ∈ cs, isDigit c = false) → digitCount cs = 0 := by
    intro cs h
    cases cs with
    | nil => rfl
    | cons c rest => simp [digitCount, h c (List.mem_cons_self ..)]
  cases cs with
  | nil => rfl
  | cons c rest =>
    have hrest : digitCount rest = 0 := hnone fun d hd => h d (List.mem_cons_of_mem _ hd)
    simp [numberLength?, hnone h, fractionLength, hrest]

/-- What starts no date, no time and no structure is taken for a number or a name. -/
theorem next?_of_not_digit {lx : Lexicon} {c : Char} {rest : List Char} (atStart : Bool)
    (hdigit : isDigit c = false) (hstart : c ∉ NumberFormat.structural) :
    lx.next? atStart (c :: rest) = ((lx.recognizers atStart).drop 4).findSome? (· (c :: rest)) := by
  simp only [NumberFormat.structural, List.mem_cons, List.not_mem_nil, or_false, not_or] at hstart
  obtain ⟨hopen, hclose, hsemicolon, hcolon, hequals, hcomment⟩ := hstart
  have hstructure : structure? (c :: rest) = none := by
    simp [structure?, structureKind?, *]
  have hdate : dateLength? (c :: rest) = none := by
    simp [dateLength?, hasShape, hdigit]
  have htime : timeLength? (c :: rest) = none := by
    simp [timeLength?, hasShape, hdigit]
  have hcommentNone : comment? atStart (c :: rest) = none := by
    simp [comment?, hcomment]
  simp only [next?, recognizers, List.findSome?_cons, hcommentNone, hstructure, hdate, htime,
    Option.map_none, List.drop_succ_cons, List.drop_zero]

/-- What starts no literal and no structure is taken for a name. -/
theorem next?_of_start {lx : Lexicon} {c : Char} {rest : List Char} (atStart : Bool)
    (hdigit : isDigit c = false) (hstart : c ∉ NumberFormat.structural)
    (hnumber : numberLength? lx.decimalSeparator (c :: rest) = none) :
    lx.next? atStart (c :: rest) = ((lx.recognizers atStart).drop 5).findSome? (· (c :: rest)) := by
  rw [next?_of_not_digit atStart hdigit hstart]
  simp only [recognizers, List.drop_succ_cons, List.drop_zero, List.findSome?_cons, hnumber,
    Option.map_none]

theorem next?_of_operatorLength {lx : Lexicon} {c : Char} {rest : List Char} (atStart : Bool)
    (hdigit : isDigit c = false) (hstart : c ∉ NumberFormat.structural)
    (hnumber : numberLength? lx.decimalSeparator (c :: rest) = none) {n : Nat}
    (hoperators : lx.nameLength? lx.operators (c :: rest) = some n) :
    lx.next? atStart (c :: rest) = some (.operator, n) := by
  rw [next?_of_start atStart hdigit hstart hnumber]
  simp only [recognizers, List.drop_succ_cons, List.drop_zero, List.findSome?_cons, hoperators,
    Option.map_some]

theorem next?_of_unitLength {lx : Lexicon} {c : Char} {rest : List Char} (atStart : Bool)
    (hdigit : isDigit c = false) (hstart : c ∉ NumberFormat.structural)
    (hnumber : numberLength? lx.decimalSeparator (c :: rest) = none)
    (hoperators : lx.nameLength? lx.operators (c :: rest) = none)
    (hfunctions : lx.nameLength? lx.functions (c :: rest) = none)
    (haggregators : lx.nameLength? lx.aggregators (c :: rest) = none)
    {n : Nat} (hunits : lx.nameLength? lx.units (c :: rest) = some n) :
    lx.next? atStart (c :: rest) = some (.unit, n) := by
  rw [next?_of_start atStart hdigit hstart hnumber]
  simp only [recognizers, List.drop_succ_cons, List.drop_zero, List.findSome?_cons, hoperators,
    hfunctions, haggregators, hunits, Option.map_none, Option.map_some]

/-- The whole of a unit word is read as a unit, whatever the decimal separator is. -/
theorem next?_withSeparator_of_unitWord (separator : Char) {text name : List Char}
    (h : LowersTo text name) (hword : isUnitWord name = true) (hmem : name ∈ lexicon.units)
    {atStart : Bool} :
    (lexicon.withSeparator separator).next? atStart text = some (.unit, text.length) := by
  have hothers : ∀ names, (∀ other ∈ names,
      other ∈ lexicon.operators ++ lexicon.functions ++ lexicon.aggregators) →
      (lexicon.withSeparator separator).nameLength? names text = none := by
    intro names hnames
    rw [nameLength?_withSeparator]
    exact nameLength?_of_unitWord h hword hnames
  have hunit : (lexicon.withSeparator separator).nameLength? (lexicon.withSeparator separator).units
      text = some text.length := by
    rw [nameLength?_withSeparator, units_withSeparator]
    exact unitLength?_of_unitWord h hword hmem
  -- a digit of the word would be a digit of its lowercase
  have hdigit : ∀ x ∈ text, isDigit x = false := by
    intro x hx
    obtain ⟨i, hi, rfl⟩ := List.getElem_of_mem hx
    have hlowers := (List.forall₂_iff_get.1 h).2 i hi (h.length_eq ▸ hi)
    exact isDigit_of_lowerChar hlowers.2 (plain_of_isUnitWord hword _ (List.get_mem ..)).digit
  have hnumber := numberLength?_of_no_digit hdigit separator
  cases h with
  | nil => exact absurd rfl (ne_nil_of_isUnitWord hword)
  | @cons x y rest lowered hhead htail =>
  have hplain : Plain y := plain_of_isUnitWord hword y (List.mem_cons_self ..)
  -- the word starts no structure, because its lowercase does not
  have hfixed : ∀ c ∈ NumberFormat.structural, lowerChar c = [c] :=
    List.all_iff_forall_prop.1 (by decide +kernel)
  have hstart : y ∉ NumberFormat.structural := fun hy =>
    hplain.start (List.mem_cons_of_mem _ hy)
  refine next?_of_unitLength atStart (hdigit x (List.mem_cons_self ..))
    (not_mem_of_lowerChar hfixed hhead.2 hstart) hnumber ?_ ?_ ?_ hunit
  · rw [operators_withSeparator]
    exact hothers _ fun other hother => by simp [hother]
  · rw [functions_withSeparator]
    exact hothers _ fun other hother => by simp [hother]
  · rw [aggregators_withSeparator]
    exact hothers _ fun other hother => by simp [hother]

theorem withSeparator_point : lexicon.withSeparator '.' = lexicon := by
  rw [← decimalSeparator_lexicon, withSeparator_self]

theorem next?_of_unitWord {text name : List Char} (h : LowersTo text name)
    (hword : isUnitWord name = true) (hmem : name ∈ lexicon.units) {atStart : Bool} :
    lexicon.next? atStart text = some (.unit, text.length) := by
  rw [← withSeparator_point]
  exact next?_withSeparator_of_unitWord '.' h hword hmem

theorem closes_lexicon : lexicon.Closes where
  delimiter := by decide +kernel
  separator := by rw [decimalSeparator_lexicon]; decide
  operators := by decide +kernel
  functions := by decide +kernel
  aggregators := by decide +kernel
  units := by
    intro name hname hparen
    have hplain : Plain ')' := plain_of_isUnitWord (isUnitWord_of_mem_units hname) ')' hparen
    exact hplain.start (by decide)

/-! ## Conversion operators -/

/-- The symbols of the operators that ask for a unit. -/
def keywords : List (List Char) := ["to".toList, "as".toList]

/-- After such a symbol and a space only an a can continue a longer operator. -/
theorem operators_of_keyword : ∀ keyword ∈ keywords, keyword ∈ lexicon.operators ∧
    ∀ other ∈ lexicon.operators, other ≠ keyword → ¬ other <+: keyword ++ [' '] ∧
      (keyword ++ [' '] <+: other → keyword ++ [' ', 'a'] <+: other) := by
  decide +kernel

/-- Before a space and a text that does not start with an a the symbol is read alone. -/
theorem next?_of_keyword {keyword text name : List Char} (hkeyword : keyword ∈ keywords)
    (h : LowersTo text name) (hhead : name.head? ≠ some 'a') :
    lexicon.next? false (keyword ++ ' ' :: text) = some (.operator, keyword.length) := by
  obtain ⟨hmem, hothers⟩ := operators_of_keyword keyword hkeyword
  have hself : LowersTo keyword keyword := by
    simp only [keywords, List.mem_cons, List.not_mem_nil, or_false] at hkeyword
    rcases hkeyword with rfl | rfl
    · exact .cons (by decide) (.cons (by decide) .nil)
    · exact .cons (by decide) (.cons (by decide) .nil)
  have hlowers : LowersTo (keyword ++ ' ' :: text) (keyword ++ ' ' :: name) :=
    List.rel_append hself (.cons (by decide) h)
  have hadmits : lexicon.admits (keyword ++ ' ' :: text) keyword = true := by
    have hblank : isBlank ' ' = true := by decide
    simp [admits, hself.lower_eq, isBoundary, hblank]
  -- another operator that stood here would start like the text, with the keyword and the space
  have hrejects : ∀ other ∈ lexicon.operators, other ≠ keyword →
      lexicon.admits (keyword ++ ' ' :: text) other = false := by
    intro other hother hne
    obtain ⟨hshort, hlong⟩ := hothers other hother hne
    rw [Bool.eq_false_iff]
    intro hfound
    have hinitial : other <+: keyword ++ ' ' :: name := by
      simp only [admits, Bool.and_eq_true, beq_iff_eq] at hfound
      rw [← hfound.1.2, (hlowers.take other.length).lower_eq]
      exact List.take_prefix ..
    have hspace : keyword ++ [' '] <+: keyword ++ ' ' :: name :=
      (List.prefix_append_right_inj keyword).2 (List.prefix_append [' '] name)
    rcases List.prefix_or_prefix_of_prefix hinitial hspace with hbelow | habove
    · exact hshort hbelow
    · have ha : keyword ++ [' ', 'a'] <+: keyword ++ ' ' :: name := (hlong habove).trans hinitial
      rw [List.prefix_append_right_inj, List.cons_prefix_cons] at ha
      exact hhead (List.head?_eq_some_iff.2 (by
        obtain ⟨tail, htail⟩ := ha.2
        exact ⟨tail, htail.symm⟩))
  have hlength : lexicon.nameLength? lexicon.operators (keyword ++ ' ' :: text) =
      some keyword.length := by
    rw [nameLength?, find?_of_unique hmem hadmits hrejects, Option.map_some]
  obtain ⟨c, rest, rfl, hdigit, hpoint, hstart⟩ : ∃ c rest, keyword = c :: rest ∧
      isDigit c = false ∧ c ≠ '.' ∧ c ∉ NumberFormat.structural := by
    simp only [keywords, List.mem_cons, List.not_mem_nil, or_false] at hkeyword
    rcases hkeyword with rfl | rfl
    · exact ⟨'t', ['o'], by decide⟩
    · exact ⟨'a', ['s'], by decide⟩
  rw [← decimalSeparator_lexicon] at hpoint
  exact next?_of_operatorLength false hdigit hstart (numberLength?_cons_of_ne _ hdigit hpoint) hlength

end Standard

end LineCalc
