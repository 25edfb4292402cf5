import LineCalc.Calendar.Instant
import LineCalc.Decimal.Digits
import LineCalc.Text.Blank
import LineCalc.Text.Digit

/-!
# Dates and times as text

A date is written as year, month and day with hyphens between them, a time as hour, minute and
second with colons. Reading is more lenient than writing: a number may have white space before it
and need not be padded, a year may have a sign, and the seconds of a time may be missing. Nothing
may follow.
-/

namespace LineCalc

namespace Text

/-- The digits at the start of a text, at most so many, as a number, and what follows them. -/
def takeDigits : Nat → Nat → List Char → Nat × List Char
  | 0, value, cs => (value, cs)
  | _ + 1, value, [] => (value, [])
  | most + 1, value, c :: rest =>
    match asciiDigit? c with
    | some d => takeDigits most (value * 10 + d) rest
    | none => (value, c :: rest)

/-- A number of one to `most` digits. -/
def readNumber? (most : Nat) : List Char → Option (Nat × List Char)
  | [] => none
  | c :: rest =>
    match asciiDigit? c with
    | some _ => some (takeDigits most 0 (c :: rest))
    | none => none

/-- A number of one or two digits, after white space. -/
def readPair? (cs : List Char) : Option (Nat × List Char) :=
  readNumber? 2 (trimStart cs)

/-- A year, after white space: up to four digits, or a sign and any number of them. -/
def readYear? (cs : List Char) : Option (Int × List Char) :=
  match trimStart cs with
  | '-' :: rest => (readNumber? rest.length rest).map fun (n, rest) => (-(n : Int), rest)
  | '+' :: rest => (readNumber? rest.length rest).map fun (n, rest) => ((n : Int), rest)
  | rest => (readNumber? 4 rest).map fun (n, rest) => ((n : Int), rest)

/-- What follows one expected character. -/
def skip? (expected : Char) : List Char → Option (List Char)
  | [] => none
  | c :: rest => if c = expected then some rest else none

end Text

open Text

namespace Date

/-- The date that a text denotes. -/
def read? (cs : List Char) : Option Date := do
  let (year, cs) ← readYear? cs
  let cs ← skip? '-' cs
  let (month, cs) ← readPair? cs
  let cs ← skip? '-' cs
  let (day, cs) ← readPair? cs
  if cs.isEmpty then ofCivil? ⟨year, month, day⟩ else none

/-- A year: four digits, or a sign and at least four digits outside of years 0 to 9999. -/
def yearText (year : Int) : List Char :=
  let digits := Decimal.paddedDigits 4 year.natAbs
  if year < 0 then '-' :: digits
  else if 9999 < year then '+' :: digits
  else digits

def toText (d : Date) : List Char :=
  let c := d.civil
  yearText c.year ++ '-' :: Decimal.paddedDigits 2 c.month ++ '-' :: Decimal.paddedDigits 2 c.day

end Date

namespace TimeOfDay

/-- Hour and minute at the start of a text. -/
def readHourMinute? (cs : List Char) : Option (Nat × Nat × List Char) := do
  let (hour, cs) ← readPair? cs
  let cs ← skip? ':' cs
  let (minute, cs) ← readPair? cs
  pure (hour, minute, cs)

/-- The time that a text denotes, with or without seconds. -/
def read? (cs : List Char) : Option TimeOfDay := do
  let (hour, minute, cs) ← readHourMinute? cs
  if cs.isEmpty then ofParts? hour minute 0
  else
    let cs ← skip? ':' cs
    let (second, cs) ← readPair? cs
    if cs.isEmpty then ofParts? hour minute second else none

/-- The text of a time, without its fraction; a leap second is the sixtieth of its minute. -/
def toText (t : TimeOfDay) : List Char :=
  let second := t.second % 60 + (if t.isLeap then 1 else 0)
  Decimal.paddedDigits 2 (t.second / 3600) ++ ':' ::
    Decimal.paddedDigits 2 (t.second / 60 % 60) ++ ':' :: Decimal.paddedDigits 2 second

end TimeOfDay

end LineCalc
