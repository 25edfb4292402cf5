import LineCalc.Proofs.Separators

/-!
# Literals mean what they say

A literal of up to 28 digits has room in a decimal with all of its digits, so that reading rounds
nothing. With any decimal separator that a configuration accepts, a line of a literal alone is one
number token; the separator can be the sign of an operator, and then it is still part of the number.
The plan of the line is the number that the digits denote, with a place for each digit of the
fraction.

* **`Literal.denoted`**: the number that the digits of a literal denote.
* **`Literal.toRat_ofScaled`**: the mantissa of all digits over the places of the fraction is that
  number.
* **`Standard.compile_literal`**: how a line of a literal is read, for every accepted separator.
-/

namespace LineCalc

open Text NumberFormat Lexicon

namespace Literal

variable {l : Literal}

/-- The number that a literal denotes: its whole part, and tenths by the places after it. -/
def denoted (l : Literal) : ℚ :=
  Nat.ofDigitChars 10 l.whole 0 + Nat.ofDigitChars 10 l.fraction 0 / 10 ^ l.fraction.length

/-- A number with digits after it stays below the next number with as many zeros after it. -/
theorem ofDigitChars_lt {digits : List Char} (h : ∀ c ∈ digits, c.isDigit = true) (n : Nat) :
    Nat.ofDigitChars 10 digits n < (n + 1) * 10 ^ digits.length := by
  induction digits generalizing n with
  | nil => simp
  | cons c digits ih =>
    obtain ⟨hc, hdigits⟩ := List.forall_mem_cons.1 h
    have hdigit : c.toNat - '0'.toNat ≤ 9 := by
      have hhigh : c.toNat ≤ 57 := (Char.isDigit_iff_toNat.1 hc).2
      have hzero : '0'.toNat = 48 := rfl
      omega
    rw [Nat.ofDigitChars_cons, List.length_cons, Nat.pow_succ']
    calc Nat.ofDigitChars 10 digits (10 * n + (c.toNat - '0'.toNat))
        < (10 * n + (c.toNat - '0'.toNat) + 1) * 10 ^ digits.length := ih hdigits _
      _ ≤ ((n + 1) * 10) * 10 ^ digits.length := Nat.mul_le_mul_right _ (by omega)
      _ = (n + 1) * (10 * 10 ^ digits.length) := Nat.mul_assoc ..

/-- Up to 28 digits fit in 96 bits. -/
theorem mantissa_lt (h : (l.whole ++ l.fraction).length ≤ maxScale) :
    l.mantissa < mantissaBound := by
  calc l.mantissa < (0 + 1) * 10 ^ (l.whole ++ l.fraction).length := ofDigitChars_lt l.digits 0
    _ = 10 ^ (l.whole ++ l.fraction).length := by rw [Nat.zero_add, Nat.one_mul]
    _ ≤ 10 ^ maxScale := Nat.pow_le_pow_right (by decide) h
    _ < mantissaBound := by decide

/-- All digits as one integer, over the places of the fraction, are the number that is denoted. -/
theorem toRat_ofScaled (l : Literal) (hmantissa : (l.mantissa : Int).natAbs < mantissaBound)
    (hplaces : l.fraction.length ≤ maxScale) :
    (Decimal.ofScaled l.mantissa l.fraction.length hmantissa hplaces).toRat = l.denoted := by
  have hsplit : l.mantissa = 10 ^ l.fraction.length * Nat.ofDigitChars 10 l.whole 0 +
      Nat.ofDigitChars 10 l.fraction 0 := by
    rw [mantissa_eq, Nat.ofDigitChars_eq_ofDigitChars_zero]
  have hpow := ten_pow_pos l.fraction.length
  rw [Decimal.toRat_eq_iff]
  simp only [Decimal.ofScaled]
  rw [denoted, add_mul, div_mul_cancel₀ _ hpow.ne', hsplit]
  push_cast
  ring

end Literal

namespace Standard

open Calculator (evaluate_of_postorder compile_of_written)

variable {separator : Char} {grouping : Option Char} {config : Config}

/--
With any decimal separator that a configuration accepts, a literal of at most 28 digits that stands
alone on a line is one number token. It is read as the number that its digits denote, with a place
for each digit of the fraction, and this number is the plan of the line and its value.
-/
theorem compile_literal
    (hbuild : ((draft.withDecimalSeparator separator).withGroupingSeparator grouping).build =
      .ok config) (l : Literal) (hlength : (l.whole ++ l.fraction).length ≤ 28) :
    ∃ value : Decimal, value.toRat = l.denoted ∧ value.scale = l.fraction.length ∧
      (ofConfig config).lex (String.ofList (l.chars separator)) =
        .ok [⟨.number, String.ofList (l.chars separator), 0⟩] ∧
      config.format.read (String.ofList (l.chars separator)) = .ok value ∧
      (Calculator.ofConfig config).compile (String.ofList (l.chars separator)) =
        .ok [.number value] ∧
      ∀ env, ((Calculator.ofConfig config).evaluate env (String.ofList (l.chars separator))).2 =
        .number ⟨value, .unitless⟩ := by
  have hconfig : config.toDraft =
      (Config.standard.toDraft.withDecimalSeparator separator).withGroupingSeparator grouping :=
    Draft.build_eq_ok_iff.1 hbuild
  have hformat : config.format.decimalSeparator = separator := by rw [hconfig]; rfl
  have hseparator : isSeparator config.format.decimalSeparator = true := config.acceptable.1
  have hmantissa : l.mantissa < mantissaBound := Literal.mantissa_lt hlength
  have hplaces : l.fraction.length ≤ maxScale := by
    rw [List.length_append] at hlength
    exact Nat.le_trans (Nat.le_add_left _ _) hlength
  have hread := read_chars hseparator l hmantissa hplaces
  have hlex := @lex_literal (ofConfig config) hseparator l
  have hdecimal : (ofConfig config).decimalSeparator = separator := hformat
  rw [hformat] at hread
  rw [hdecimal] at hlex
  have hcompile := compile_of_written (c := Calculator.ofConfig config) hlex (.number rfl hread)
  exact ⟨_, l.toRat_ofScaled _ hplaces, rfl, hlex, hread, hcompile,
    fun env => congrArg Prod.snd (evaluate_of_postorder hcompile rfl rfl)⟩

/-- With a hyphen for the decimal point, `007-50` is 7.5 with two places, and no difference. -/
theorem compile_literal_hyphen :
    ∃ (config : Config) (value : Decimal),
      ((draft.withDecimalSeparator '-').withGroupingSeparator none).build = .ok config ∧
        (ofConfig config).lex "007-50" = .ok [⟨.number, "007-50", 0⟩] ∧
        (Calculator.ofConfig config).compile "007-50" = .ok [.number value] ∧
        value.toRat = 15 / 2 ∧ value.scale = 2 := by
  have hhyphen : '-' ∈ symbols := by decide
  obtain ⟨config, hbuild⟩ := draft.exists_build_of_symbol hhyphen
  let l : Literal := ⟨['0', '0', '7'], ['5', '0'], List.all_eq_true.1 (by decide), by decide⟩
  obtain ⟨value, hvalue, hscale, hlex, -, hcompile, -⟩ := compile_literal hbuild l (by decide)
  have hdenoted : l.denoted = 15 / 2 := by decide +kernel
  exact ⟨config, value, hbuild, hlex, hcompile, hvalue.trans hdenoted, hscale⟩

end Standard

end LineCalc
