import LineCalc.Proofs.NameTokens
import LineCalc.Proofs.ReadBack

/-!
# Amounts in a line

An amount is typed as a number, with the name of a unit after it or without one. In the standard
vocabulary it is read as such at the end of a line and before a sum, whatever digits the number is
written with and whatever name of the unit is used.

* **`Amount`**: a number as it is typed, and perhaps the name of a unit.
* **`Standard.exists_written_amount`**: an amount is read as tokens that write it.
-/

namespace LineCalc

open Text Lexicon

/-- An amount as it is typed: a number, and perhaps the name of a unit. -/
structure Amount where
  literal : Literal
  name : Option String

namespace Amount

/-- What is written after the number: a space and the name of the unit, if there is one. -/
def unitText (a : Amount) : String :=
  match a.name with
  | none => ""
  | some name => " " ++ name

/-- The amount as it is typed. -/
def text (a : Amount) : String :=
  String.ofList (a.literal.chars '.') ++ a.unitText

/-- The name of the unit, if there is one, stands for a unit of the group. -/
def NamedIn (a : Amount) (group : List MeasureUnit) : Prop :=
  ∀ name ∈ a.name, ∃ u ∈ group, Config.standard.units.lookup name = some u

/-- The unit that the amount is in, if it has one. -/
def unit? (a : Amount) : Option MeasureUnit :=
  a.name.bind Config.standard.units.lookup

/-- The digits can be taken in without rounding. -/
structure Fits (a : Amount) : Prop where
  mantissa : a.literal.mantissa < mantissaBound
  places : a.literal.fraction.length ≤ maxScale

/-- The number of an amount, with a place for each digit of the fraction. -/
def value (a : Amount) (h : a.Fits) : Decimal :=
  .ofScaled a.literal.mantissa a.literal.fraction.length (by simpa using h.mantissa) h.places

variable {group : List MeasureUnit} {a : Amount}

/-- The quantity that an amount is read as. -/
def quantity (a : Amount) (h : a.Fits) : Quantity :=
  ⟨a.value h, a.unit?.getD .unitless⟩

theorem unit_quantity_mem (hnamed : a.NamedIn group) (h : a.Fits) :
    (a.quantity h).unit ∈ MeasureUnit.unitless :: group := by
  unfold quantity unit?
  cases hname : a.name with
  | none => exact List.mem_cons_self ..
  | some name =>
    obtain ⟨u, hu, hlookup⟩ := hnamed name hname
    rw [Option.bind_some, hlookup]
    exact List.mem_cons_of_mem _ hu

/-- The tree of an amount. -/
def expression (a : Amount) (h : a.Fits) : Expression :=
  .number (a.value h) a.unit?

theorem evaluate_expression (h : a.Fits) (units : Registry) (env : Environment) :
    (a.expression h).evaluate units env = (env, .ok (.number (a.quantity h))) := by
  unfold expression quantity
  cases a.unit? <;> rfl

theorem isSeparator_point : NumberFormat.isSeparator '.' = true := by decide

theorem startsWord_text (a : Amount) : StartsWord a.text.toList := by
  rw [text, String.toList_append, String.toList_ofList]
  exact (startsWord_chars isSeparator_point a.literal).append _

end Amount

namespace Standard

/-! ## Amounts -/

theorem format_standard : Config.standard.format = {} :=
  format_draft

theorem Follows.endsNumber {rest : List Char} (h : Follows rest) : EndsNumber rest := by
  rcases h with rfl | ⟨more, rfl⟩
  · exact .inl rfl
  · exact .inr ⟨_, rfl⟩

/-- The number that an amount starts with. -/
theorem scan_literal (l : Literal) {cs rest : List Char} (hrest : EndsNumber rest)
    (htrim : trimStart cs = l.chars '.' ++ rest) (start : Nat) (atStart : Bool) :
    ∃ position after, lexicon.scan start atStart cs =
      (⟨.number, String.ofList (l.chars '.'), position⟩ :: (lexicon.scan after false rest).1,
        (lexicon.scan after false rest).2) := by
  have hseparator : NumberFormat.isSeparator lexicon.decimalSeparator = true := by
    rw [decimalSeparator_lexicon]
    exact Amount.isSeparator_point
  have hscan := scan_chars lexicon hseparator hrest (htrim.trans (by rw [decimalSeparator_lexicon]))
    start atStart
  rwa [decimalSeparator_lexicon] at hscan

theorem read_literal {a : Amount} (hfits : a.Fits) :
    Config.standard.format.read (String.ofList (a.literal.chars '.')) = .ok (a.value hfits) := by
  rw [format_standard]
  exact NumberFormat.read_chars Amount.isSeparator_point a.literal hfits.mantissa hfits.places

/-- An amount is read as tokens that write it, at the end of the line and before ` +`. -/
theorem exists_written_amount {a : Amount} {group : List MeasureUnit} (hnamed : a.NamedIn group)
    (hfits : a.Fits) {cs rest : List Char} (hrest : Follows rest)
    (htrim : trimStart cs = a.text.toList ++ rest) (start : Nat) (atStart : Bool) :
    ∃ tokens after, lexicon.scan start atStart cs =
        (tokens ++ (lexicon.scan after false rest).1, (lexicon.scan after false rest).2) ∧
      Written Config.standard (a.expression hfits) tokens [] := by
  have hread := read_literal hfits
  obtain ⟨literal, name⟩ := a
  cases name with
  | none =>
    have htext : trimStart cs = literal.chars '.' ++ rest := by
      rw [htrim]
      simp [Amount.text, Amount.unitText]
    obtain ⟨position, after, hscan⟩ := scan_literal literal hrest.endsNumber htext start atStart
    exact ⟨[⟨.number, String.ofList (literal.chars '.'), position⟩], after, hscan,
      .number rfl hread⟩
  | some name =>
    obtain ⟨u, -, hlookup⟩ := hnamed name rfl
    have htext : trimStart cs = literal.chars '.' ++ ' ' :: (name.toList ++ rest) := by
      rw [htrim]
      simp [Amount.text, Amount.unitText]
    have hunit : Amount.unit? ⟨literal, some name⟩ = some u := by
      rw [Amount.unit?, Option.bind_some, hlookup]
    -- the number ends before the space, and the name before what follows the amount
    obtain ⟨position, between, hscan⟩ := scan_literal literal (.inr ⟨_, rfl⟩) htext start atStart
    obtain ⟨hlowers, hword, hmem⟩ := unitWord_of_lookup hlookup
    obtain ⟨unitPosition, after, hunitScan⟩ := scan_word (startsWord_of_unitWord hlowers hword)
      (next?_of_unit hmem (hrest.cuts _) false) between
    rw [String.ofList_toList] at hunitScan
    rw [hunitScan] at hscan
    rw [Amount.expression, hunit]
    exact ⟨[⟨.number, String.ofList (literal.chars '.'), position⟩, ⟨.unit, name, unitPosition⟩],
      after, hscan, .quantity rfl hread rfl hlookup⟩

end Standard

end LineCalc
