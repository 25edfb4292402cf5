import LineCalc.Lexicon
import LineCalc.Proofs.Numerals

/-!
# Numbers in a line

The characters of a literal at the end of a line, or before a space, are read as one number whatever
the decimal separator is: there is no second separator that could make a date of it, and a separator
is no colon, so it is no time either.

* **`hasShape_digits`**: in a shape, a run of digits is followed by what follows it in the text.
* **`next?_chars`**: the characters of a literal are a number token.
-/

namespace LineCalc.Lexicon

open Text NumberFormat

/-- Nothing or a space follows. -/
def EndsNumber (rest : List Char) : Prop :=
  rest = [] ∨ ∃ more, rest = ' ' :: more

/-- The text does not go on with a digit. -/
def NoDigit (rest : List Char) : Prop :=
  ∀ c ∈ rest.head?, isDigit c = false

theorem EndsNumber.noDigit {rest : List Char} (h : EndsNumber rest) : NoDigit rest := by
  rcases h with rfl | ⟨more, rfl⟩
  · intro c hc
    cases hc
  · intro c hc
    cases hc
    decide

section

variable {digits rest : List Char}

theorem beq_eq_false_of_isDigit {mark : Char} (hmark : isDigit mark = false) :
    ∀ c, isDigit c = true → (c == mark) = false := by
  intro c hc
  rw [beq_eq_false_iff_ne]
  rintro rfl
  rw [hc] at hmark
  cases hmark

theorem EndsNumber.not_hasShape {mark : Char} (hmark : ' ' ≠ mark) (h : EndsNumber rest)
    (tests : List (Char → Bool)) : ¬ hasShape ((· == mark) :: tests) rest = true := by
  rcases h with rfl | ⟨more, rfl⟩ <;> simp [hasShape, hmark]

/-- In a shape, a run of digits is followed by what follows it in the text. -/
theorem hasShape_digits {n : Nat} {test : Char → Bool} {tests : List (Char → Bool)}
    (htest : ∀ c, isDigit c = true → test c = false) (hdigits : ∀ c ∈ digits, isDigit c = true)
    (hrest : NoDigit rest)
    (h : hasShape (List.replicate n isDigit ++ test :: tests) (digits ++ rest) = true) :
    hasShape (test :: tests) rest = true := by
  -- a digit of the shape takes a digit of the run, and both come to their ends together
  induction n generalizing digits with
  | zero =>
    cases digits with
    | nil => exact h
    | cons c digits =>
      have hc : isDigit c = true := hdigits c (List.mem_cons_self ..)
      simp [hasShape, htest c hc] at h
  | succ n ih =>
    rw [List.replicate_succ, List.cons_append] at h
    cases digits with
    | nil =>
      cases rest with
      | nil => simp [hasShape] at h
      | cons c rest =>
        have hc : isDigit c = false := hrest c rfl
        simp [hasShape, hc] at h
    | cons c digits =>
      rw [List.cons_append, hasShape, Bool.and_eq_true] at h
      exact ih (fun d hd => hdigits d (List.mem_cons_of_mem _ hd)) h.2

theorem digitCount_append_of_noDigit (hdigits : ∀ c ∈ digits, isDigit c = true)
    (hrest : NoDigit rest) : digitCount (digits ++ rest) = digits.length := by
  have hnone : rest.takeWhile isDigit = [] := by
    cases rest with
    | nil => rfl
    | cons c rest =>
      have hc : isDigit c = false := hrest c rfl
      simp [hc]
  rw [digitCount, List.takeWhile_append_of_pos hdigits, hnone, List.append_nil]

end

variable {separator : Char} {rest : List Char}

/-- What follows the whole digits: nothing, a space, or the separator and the fraction. -/
theorem noDigit_fraction (hseparator : isSeparator separator = true) (hrest : EndsNumber rest)
    (l : Literal) :
    NoDigit ((if l.fraction = [] then [] else separator :: l.fraction) ++ rest) := by
  split
  · exact hrest.noDigit
  · intro c hc
    cases hc
    exact (ne_of_isSeparator hseparator).2.1

theorem dateLength?_chars (hseparator : isSeparator separator = true) (hrest : EndsNumber rest)
    (l : Literal) : dateLength? (l.chars separator ++ rest) = none := by
  have hhyphen : ∀ c, isDigit c = true → (c == '-') = false := beq_eq_false_of_isDigit (by decide)
  have hend : ∀ tests, ¬ hasShape ((· == '-') :: tests) rest = true :=
    hrest.not_hasShape (by decide)
  rw [dateLength?, if_neg]
  intro hshape
  rw [Literal.chars, List.append_assoc] at hshape
  have hfirst := hasShape_digits (n := 4) hhyphen (fun c hc => (l.figure_of_mem_whole c hc).digit)
    (noDigit_fraction hseparator hrest l) hshape
  split at hfirst
  · exact hend _ hfirst
  · -- the separator could be the first hyphen, but there is no second one
    rw [List.cons_append, hasShape, Bool.and_eq_true] at hfirst
    exact hend _ (hasShape_digits (n := 2) hhyphen
      (fun c hc => (l.figure_of_mem_fraction c hc).digit) hrest.noDigit hfirst.2)

theorem timeLength?_chars (hseparator : isSeparator separator = true) (hrest : EndsNumber rest)
    (l : Literal) : timeLength? (l.chars separator ++ rest) = none := by
  have hcolon : ∀ c, isDigit c = true → (c == ':') = false := beq_eq_false_of_isDigit (by decide)
  have hnone : ∀ n tests,
      hasShape (List.replicate n isDigit ++ (· == ':') :: tests) (l.chars separator ++ rest) =
        false := by
    intro n tests
    rw [Bool.eq_false_iff]
    intro hshape
    rw [Literal.chars, List.append_assoc] at hshape
    have hfirst := hasShape_digits hcolon (fun c hc => (l.figure_of_mem_whole c hc).digit)
      (noDigit_fraction hseparator hrest l) hshape
    split at hfirst
    · exact hrest.not_hasShape (by decide) _ hfirst
    · rw [List.cons_append, hasShape, Bool.and_eq_true, beq_iff_eq] at hfirst
      rw [hfirst.1] at hseparator
      revert hseparator
      decide
  have htwo := hnone 2 [isDigit, isDigit]
  have hone := hnone 1 [isDigit, isDigit]
  simp only [List.replicate, List.cons_append, List.nil_append] at htwo hone
  simp only [timeLength?, htwo, hone, Bool.false_eq_true, if_false]

theorem numberLength?_chars (hseparator : isSeparator separator = true) (hrest : EndsNumber rest)
    (l : Literal) :
    numberLength? separator (l.chars separator ++ rest) = some (l.chars separator).length := by
  have hwhole : digitCount (l.chars separator ++ rest) = l.whole.length := by
    rw [Literal.chars, List.append_assoc]
    exact digitCount_append_of_noDigit (fun c hc => (l.figure_of_mem_whole c hc).digit)
      (noDigit_fraction hseparator hrest l)
  have hfraction : fractionLength separator ((l.chars separator ++ rest).drop l.whole.length) =
      (if l.fraction = [] then [] else separator :: l.fraction).length := by
    rw [Literal.chars, List.append_assoc, List.drop_left]
    split
    · rcases hrest with rfl | ⟨more, rfl⟩
      · rfl
      · have hspace : ' ' ≠ separator := by
          rintro rfl
          revert hseparator
          decide
        simp [fractionLength, hspace]
    · rename_i hnonempty
      have hdigits := digitCount_append_of_noDigit
        (fun c hc => (l.figure_of_mem_fraction c hc).digit) hrest.noDigit
      have hpos : 0 < l.fraction.length := List.length_pos_iff.2 hnonempty
      rw [List.cons_append, fractionLength, hdigits, if_pos ⟨rfl, hpos⟩, List.length_cons]
      omega
  have hlength : 0 < (l.chars separator).length := by
    obtain ⟨c, more, hcons, -⟩ := l.exists_chars_eq_cons separator
    rw [hcons]
    exact Nat.succ_pos _
  have hsum : l.whole.length + (if l.fraction = [] then [] else separator :: l.fraction).length =
      (l.chars separator).length := by
    rw [Literal.chars, List.length_append]
  simp only [numberLength?, hwhole, hfraction, hsum]
  rw [if_neg (by omega)]

/-- A literal starts no comment and is no character of the structure of a line. -/
theorem not_structural_chars (hseparator : isSeparator separator = true) (l : Literal) :
    ∃ c more, l.chars separator = c :: more ∧ isBlank c = false ∧ c ∉ structural := by
  obtain ⟨hblank, -, -, hstructural⟩ := ne_of_isSeparator hseparator
  obtain ⟨c, more, hcons, hc | rfl⟩ := l.exists_chars_eq_cons separator
  · have hmarks : ∀ mark ∈ structural, mark ∈ ['-', '+', '.', '#', ':', '=', '(', ')', ';'] := by
      simp [structural]
    exact ⟨c, more, hcons, hc.blank, fun hmem => hc.special (hmarks c hmem)⟩
  · exact ⟨c, more, hcons, hblank, hstructural⟩

/-- A number at the start of a text is its first token, unless a date or a time stands there. -/
theorem next?_of_numberLength? {lx : Lexicon} {cs : List Char} {length : Nat}
    (hstart : ∀ c ∈ cs.head?, c ∉ structural) (hdate : dateLength? cs = none)
    (htime : timeLength? cs = none) (hnumber : numberLength? lx.decimalSeparator cs = some length)
    (atStart : Bool) : lx.next? atStart cs = some (.number, length) := by
  have hnone : comment? atStart cs = none ∧ structure? cs = none := by
    cases cs with
    | nil => exact ⟨rfl, rfl⟩
    | cons c more =>
      have hc := hstart c rfl
      simp only [structural, List.mem_cons, List.not_mem_nil, or_false, not_or] at hc
      simp [comment?, structure?, structureKind?, hc]
  simp only [next?, recognizers, List.findSome?_cons, hnone, hdate, htime, hnumber, Option.map_none,
    Option.map_some]

/-- The characters of a literal are a number token, at the end of a line or before a space. -/
theorem next?_chars {lx : Lexicon} (hseparator : isSeparator lx.decimalSeparator = true)
    (hrest : EndsNumber rest) (atStart : Bool) (l : Literal) :
    lx.next? atStart (l.chars lx.decimalSeparator ++ rest) =
      some (.number, (l.chars lx.decimalSeparator).length) := by
  have hstart : ∀ c ∈ (l.chars lx.decimalSeparator ++ rest).head?, c ∉ structural := by
    obtain ⟨c, more, hcons, -, hstructural⟩ := not_structural_chars hseparator l
    rw [hcons]
    rintro _ ⟨⟩
    exact hstructural
  exact next?_of_numberLength? hstart (dateLength?_chars hseparator hrest l)
    (timeLength?_chars hseparator hrest l) (numberLength?_chars hseparator hrest l) atStart

end LineCalc.Lexicon
