import LineCalc.Decimal.Basic

/-!
# The digits of a decimal

A decimal is written with its integer digits, and after a point as many digits as it has places.
The sign stands first. The plain text of a number has no zeros at the end of the fraction.
-/

namespace LineCalc.Decimal

def natDigits (n : Nat) : List Char :=
  Nat.toDigits 10 n

/-- The digits of `n`, with zeros before them to make up `width` digits. -/
def paddedDigits (width n : Nat) : List Char :=
  List.replicate (width - (natDigits n).length) '0' ++ natDigits n

def integerDigits (d : Decimal) : List Char :=
  natDigits (d.mantissa.natAbs / pow10 d.scale)

/-- The digits after the point, none when the number is whole. -/
def fractionDigits (d : Decimal) : List Char :=
  if d.scale = 0 then [] else paddedDigits d.scale (d.mantissa.natAbs % pow10 d.scale)

/-- The plain text of a number: sign, integer digits, and the point and fraction if there is one. -/
def toText (d : Decimal) : String :=
  let shown := d.normalize
  let sign := if shown.isNegative then ['-'] else []
  let fraction := if shown.scale = 0 then [] else '.' :: shown.fractionDigits
  String.ofList (sign ++ shown.integerDigits ++ fraction)

instance : ToString Decimal := ⟨toText⟩

end LineCalc.Decimal
