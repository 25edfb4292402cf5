import LineCalc.Decimal.Basic
import LineCalc.Text.Digit

/-!
# Reading a numeral

A plain numeral is an optional sign, digits and at most one point; underscores may stand anywhere
after the first digit. Digits before the point must fit in 96 bits. Digits after it are taken while there
are fewer than 28 of them and the mantissa has room; the character after the last one taken rounds
the number, a half away from zero, and whatever follows is only checked. Underscores after the 28th
place are passed over in a long numeral; in a short one the first of them rounds, as a zero does.
-/

namespace LineCalc

/-- Why a text is not a numeral. -/
inductive NumeralError where
  | empty
  | noDigits
  /-- A character that no numeral has, or a sign that is not in front. -/
  | unknownCharacter
  | secondPoint
  | leadingUnderscore
  /-- The digits before the point do not fit in 96 bits. -/
  | tooManyDigits
  /-- Rounding carries the digits past 96 bits with no place left to give up. -/
  | roundingOverflow
  | badExponent
  /-- An exponent of more than 28 either way. -/
  | exponentTooLarge (exponent : Nat)
  /-- The exponent makes the number too large. -/
  | outOfRange
  deriving Repr, DecidableEq

namespace NumeralError

/-- What is said about a text that is not a numeral. -/
def message : NumeralError → String
  | empty => "Invalid decimal: empty"
  | noDigits => "Invalid decimal: no digits found"
  | unknownCharacter => "Invalid decimal: unknown character"
  | secondPoint => "Invalid decimal: two decimal points"
  | leadingUnderscore => "Invalid decimal: must start lead with a number"
  | tooManyDigits => "Invalid decimal: overflow from too many digits"
  | roundingOverflow => "Invalid decimal: overflow from mantissa after rounding"
  | badExponent => "Failed to parse"
  | exponentTooLarge exponent =>
    s!"Scale exceeds the maximum precision allowed: {exponent} > {maxScale}"
  | outOfRange => "Number exceeds maximum value that can be represented."

end NumeralError

namespace Numeral

open Text (asciiDigit?)

/-- What has been read of a numeral: its digits as one integer, and how many follow the point. -/
structure Digits where
  /-- The digits so far. -/
  mantissa : Nat
  /-- How many of them stand after the point. -/
  places : Nat
  mantissa_lt : mantissa < mantissaBound
  places_le : places ≤ maxScale

def Digits.empty : Digits := ⟨0, 0, by decide, by decide⟩

/-- Numerals are long when the digits before the last one come to this, 255 below (2^64 - 1) / 10. -/
def longBound : Nat := 1844674407370954906

/-- Whether the digits are those of a long numeral. -/
def Digits.isLong (ds : Digits) : Bool :=
  longBound ≤ ds.mantissa / 10

/-- The number that digits and a sign denote. -/
def Digits.toDecimal (ds : Digits) (negative : Bool) : Decimal :=
  Decimal.ofScaled (if negative then -(ds.mantissa : Int) else ds.mantissa) ds.places
    (by have := ds.mantissa_lt; split <;> omega) ds.places_le

/-- The digits with the last one raised by one; a carry past 96 bits costs a place. -/
def Digits.roundUp (ds : Digits) : Except NumeralError Digits :=
  if h : ds.mantissa + 1 < mantissaBound then
    .ok { ds with mantissa := ds.mantissa + 1, mantissa_lt := h }
  else if ds.places = 0 then .error .roundingOverflow
  else
    .ok {
      mantissa := (ds.mantissa + 5) / 10
      places := ds.places - 1
      mantissa_lt := by have := ds.mantissa_lt; simp only [mantissaBound] at *; omega
      places_le := Nat.le_trans (Nat.sub_le _ _) ds.places_le }

/-- What is wrong with a character that is not a digit, after the point has been passed. -/
def faultOf (c : Char) : NumeralError :=
  if c = '.' then .secondPoint else .unknownCharacter

/-- Checks the characters that no longer count: digits and underscores only. -/
def checkRest (ds : Digits) : List Char → Except NumeralError Digits
  | [] => .ok ds
  | c :: rest =>
    if (asciiDigit? c).isSome ∨ c = '_' then checkRest ds rest else .error (faultOf c)

/-- Rounds by the first character that no longer fits, and checks the rest. -/
def roundBy (ds : Digits) (c : Char) (rest : List Char) : Except NumeralError Digits :=
  match asciiDigit? c with
  | some d => do
    let rounded ← if 5 ≤ d then ds.roundUp else pure ds
    checkRest rounded rest
  | none => if c = '_' then checkRest ds rest else .error (faultOf c)

/-- Reads on after some digits; `started` tells whether there was one, `point` whether a point. -/
def readDigits (ds : Digits) (started point : Bool) : List Char → Except NumeralError Digits
  | [] => if started then .ok ds else .error .noDigits
  | c :: rest =>
    if hfull : point = true ∧ maxScale ≤ ds.places then
      if c = '_' ∧ ds.isLong then readDigits ds started point rest else roundBy ds c rest
    else
      match asciiDigit? c with
      | some d =>
        if hfits : ds.mantissa * 10 + d < mantissaBound then
          readDigits {
            mantissa := ds.mantissa * 10 + d
            places := if point then ds.places + 1 else ds.places
            mantissa_lt := hfits
            places_le := by
              have hle := ds.places_le
              split
              · rename_i hpoint
                have hroom : ¬ maxScale ≤ ds.places := fun h => hfull ⟨hpoint, h⟩
                omega
              · exact hle } true point rest
        else if point then roundBy ds c rest
        else .error .tooManyDigits
      | none =>
        if c = '.' then
          if point then .error .secondPoint else readDigits ds started true rest
        else if c = '_' then
          if started then readDigits ds started point rest else .error .leadingUnderscore
        else .error .unknownCharacter

/-- The number that a plain numeral denotes. -/
def readPlain : List Char → Except NumeralError Decimal
  | [] => .error .empty
  | c :: rest =>
    if c = '-' then (readDigits Digits.empty false false rest).map (·.toDecimal true)
    else if c = '+' then (readDigits Digits.empty false false rest).map (·.toDecimal false)
    else (readDigits Digits.empty false false (c :: rest)).map (·.toDecimal false)

end Numeral

end LineCalc
