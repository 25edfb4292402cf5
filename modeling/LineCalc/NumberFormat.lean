import LineCalc.Decimal.Digits
import LineCalc.Decimal.Scientific
import LineCalc.Text.Blank

/-!
# Reading and writing numbers

A number format fixes the character between integer part and fraction, the character between groups
of three integer digits, if there is one, and how many decimal places are written. Numbers are read
with the same decimal separator; a grouping separator is only ever written.
-/

namespace LineCalc

/-- How numbers are read and written. -/
structure NumberFormat where
  /-- Stands between the integer part and the fraction. -/
  decimalSeparator : Char := '.'
  /-- Stands between groups of three integer digits in what is written. -/
  groupingSeparator : Option Char := none
  /-- How many decimal places are written at most. -/
  precision : Nat := 4
  deriving Repr, DecidableEq, Inhabited

namespace NumberFormat

/--
A text as a numeral with a point: without the white space around it, with a point for the decimal
separator, and with a zero before a point that stands first.
-/
def toNumeral (f : NumberFormat) (text : List Char) : List Char :=
  let numeral := (Text.trim text).map fun c => if c = f.decimalSeparator then '.' else c
  match numeral with
  | '.' :: _ => '0' :: numeral
  | _ => numeral

/-- The number written as `text`. -/
def read (f : NumberFormat) (text : String) : Except NumeralError Decimal :=
  Numeral.read (f.toNumeral text.toList)

/--
A number as it is shown: to the format's places, a half away from zero, and without zeros at the end
of the fraction.
-/
def round (f : NumberFormat) (d : Decimal) : Decimal :=
  (d.roundTo f.precision .halfAway).normalize

/-- Integer digits with a separator before every group of three that others precede. -/
def groupDigits (separator : Char) : List Char → List Char
  | [] => []
  | d :: rest =>
    if rest.length % 3 = 0 ∧ rest ≠ [] then d :: separator :: groupDigits separator rest
    else d :: groupDigits separator rest

/-- The characters of a number: sign, grouped integer part, and the fraction if there is one. -/
def write (f : NumberFormat) (d : Decimal) : List Char :=
  let shown := f.round d
  let sign := if shown.isNegative then ['-'] else []
  let integer :=
    match f.groupingSeparator with
    | some separator => groupDigits separator shown.integerDigits
    | none => shown.integerDigits
  let fraction := if shown.scale = 0 then [] else f.decimalSeparator :: shown.fractionDigits
  sign ++ integer ++ fraction

def format (f : NumberFormat) (d : Decimal) : String :=
  String.ofList (f.write d)

end NumberFormat

end LineCalc
