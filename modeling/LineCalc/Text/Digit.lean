/-!
# Digits of numerals

Numerals and dates are written with the ten ASCII digits only, whatever other digits a text may
hold.
-/

namespace LineCalc.Text

/-- The value of an ASCII digit. -/
def asciiDigit? (c : Char) : Option Nat :=
  if '0' ≤ c ∧ c ≤ '9' then some (c.toNat - '0'.toNat) else none

end LineCalc.Text
