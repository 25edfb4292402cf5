import LineCalc.Decimal.Arithmetic
import LineCalc.Decimal.Numeral

/-!
# Numerals with an exponent

A numeral is a plain one, or a plain one with an exponent after the letter `e` or `E`: an optional
minus, an optional plus and digits. The exponent says by how many places the point moves, at most 28.
To the right the digits are exact, and a number that needs zeros of its own before the point is
whole. To the left they are rounded to 28 places, a half away from zero.
-/

namespace LineCalc

namespace Decimal

/-- The number over a power of ten, rounded to 28 places with a half away from zero. -/
def pointLeft (d : Decimal) (count : Nat) (h : count ≤ maxScale) : Decimal :=
  let rounded := d.roundTo (maxScale - count) .halfAway
  { rounded with
    scale := rounded.scale + count
    scale_le :=
      Nat.add_le_of_le_sub h (d.scale_roundTo_le (maxScale - count) .halfAway) }

/-- The number times a power of ten, unless that is too large. -/
def pointRight? (d : Decimal) (count : Nat) : Option Decimal :=
  ofScaled? (d.mantissa * pow10 (count - d.scale)) (d.scale - count)

end Decimal

namespace Numeral

open Text (asciiDigit?)

/-- Exponents stay below this bound, 2^32. -/
def exponentBound : Nat := 4294967296

/-- Digits as a number, after others that come to `value`; none if there is anything else. -/
def digitsValue? (value : Nat) : List Char → Option Nat
  | [] => some value
  | c :: rest =>
    match asciiDigit? c with
    | some d => digitsValue? (value * 10 + d) rest
    | none => none

/-- The size of an exponent: one digit or more, after a plus if there is one. -/
def exponentSize? (cs : List Char) : Option Nat :=
  let digits :=
    match cs with
    | '+' :: rest => rest
    | _ => cs
  if digits.isEmpty then none else (digitsValue? 0 digits).filter (· < exponentBound)

/-- A number with its point moved by an exponent without its minus, to the right or to the left. -/
def movePoint (d : Decimal) (toRight : Bool) (exponent : List Char) :
    Except NumeralError Decimal :=
  match exponentSize? exponent with
  | none => .error .badExponent
  | some count =>
    if h : count ≤ maxScale then
      if toRight then
        match d.pointRight? count with
        | some moved => .ok moved
        | none => .error .outOfRange
      else .ok (d.pointLeft count h)
    else .error (.exponentTooLarge count)

/-- A number with its point moved by an exponent. -/
def applyExponent (d : Decimal) : List Char → Except NumeralError Decimal
  | '-' :: exponent => movePoint d false exponent
  | exponent => movePoint d true exponent

/-- Whether a character starts an exponent. -/
def startsExponent (c : Char) : Bool :=
  c == 'e' || c == 'E'

/-- The number that a numeral denotes. -/
def read (cs : List Char) : Except NumeralError Decimal := do
  let plain ← readPlain (cs.takeWhile fun c => !startsExponent c)
  match cs.dropWhile fun c => !startsExponent c with
  | [] => pure plain
  | _ :: exponent => applyExponent plain exponent

end Numeral

end LineCalc
