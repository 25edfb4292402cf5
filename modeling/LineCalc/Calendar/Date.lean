/-!
# Dates

A date is the number of a day, counted from 1 January 1970, in the Gregorian calendar extended to
all years; there is a year 0. Moving by days is then addition, and the year, the month and the day
of the month are computed only where a date is read or written. The calendar has an end on either
side: dates run from the first day of year -262143 to the last of year 262142.
-/

namespace LineCalc

/-- A date as it is written: year, month and day of the month. -/
structure Civil where
  year : Int
  month : Nat
  day : Nat
  deriving Repr, DecidableEq

namespace Civil

/-- Whether a year has a 29 February. -/
def isLeapYear (year : Int) : Bool :=
  year % 4 = 0 && (year % 100 ≠ 0 || year % 400 = 0)

/-- The number of days of a month, zero where there is no such month. -/
def monthLength (year : Int) : Nat → Nat
  | 2 => if isLeapYear year then 29 else 28
  | 4 | 6 | 9 | 11 => 30
  | 1 | 3 | 5 | 7 | 8 | 10 | 12 => 31
  | _ => 0

/-- Whether the month has such a day. -/
def Valid (c : Civil) : Prop :=
  1 ≤ c.day ∧ c.day ≤ monthLength c.year c.month

instance (c : Civil) : Decidable c.Valid :=
  inferInstanceAs (Decidable (_ ∧ _))

/-- Days from 1 March of year 0, the start of the years counted below, to 1 January 1970. -/
def epochShift : Int := 719468

/-- The days in 400 years, after which the calendar repeats. -/
def daysInEra : Int := 146097

/--
The number of the day. Years are counted from March, so that a leap day is the last of its year and
the days before a month do not depend on the year.
-/
def dayNumber (c : Civil) : Int :=
  let year := if c.month ≤ 2 then c.year - 1 else c.year
  let yearOfEra := year % 400
  let dayOfYear : Int := (153 * ((c.month + 9) % 12) + 2) / 5 + c.day - 1
  let dayOfEra := yearOfEra * 365 + yearOfEra / 4 - yearOfEra / 100 + dayOfYear
  year / 400 * daysInEra + dayOfEra - epochShift

/-- The date with the given number. -/
def ofDayNumber (n : Int) : Civil :=
  let shifted := n + epochShift
  let dayOfEra := shifted % daysInEra
  let yearOfEra := (dayOfEra - dayOfEra / 1460 + dayOfEra / 36524 - dayOfEra / 146096) / 365
  let dayOfYear := dayOfEra - (365 * yearOfEra + yearOfEra / 4 - yearOfEra / 100)
  let monthFromMarch := (5 * dayOfYear + 2) / 153
  let month := if monthFromMarch < 10 then monthFromMarch + 3 else monthFromMarch - 9
  let year := yearOfEra + shifted / daysInEra * 400
  { year := if month ≤ 2 then year + 1 else year
    month := month.toNat
    day := (dayOfYear - (153 * monthFromMarch + 2) / 5 + 1).toNat }

end Civil

/-- The number of the first date, 1 January of year -262143. -/
def firstDay : Int := -96465292

/-- The number of the last date, 31 December of year 262142. -/
def lastDay : Int := 95026236

/-- A day of the calendar. -/
structure Date where
  /-- Days since 1 January 1970. -/
  dayNumber : Int
  in_range : firstDay ≤ dayNumber ∧ dayNumber ≤ lastDay
  deriving DecidableEq

namespace Date

/-- The date with the given number, unless it lies outside the calendar. -/
def ofDayNumber? (n : Int) : Option Date :=
  if h : firstDay ≤ n ∧ n ≤ lastDay then some ⟨n, h⟩ else none

/-- The date of a year, month and day, if there is such a day in the calendar. -/
def ofCivil? (c : Civil) : Option Date :=
  if c.Valid then ofDayNumber? c.dayNumber else none

def civil (d : Date) : Civil :=
  Civil.ofDayNumber d.dayNumber

/-- The date some days later, or earlier when the number is negative. -/
def addDays? (d : Date) (days : Int) : Option Date :=
  ofDayNumber? (d.dayNumber + days)

def epoch : Date := ⟨0, by decide⟩

instance : Inhabited Date := ⟨epoch⟩

/-- A day number in the calendar is the number of its date. -/
theorem dayNumber_of_ofDayNumber? {n : Int} {d : Date} (h : ofDayNumber? n = some d) :
    d.dayNumber = n := by
  unfold ofDayNumber? at h
  split at h
  · cases h
    rfl
  · simp at h

theorem ofDayNumber?_dayNumber (d : Date) : ofDayNumber? d.dayNumber = some d := by
  simp [ofDayNumber?, d.in_range]

theorem dayNumber_of_addDays? {d e : Date} {days : Int} (h : d.addDays? days = some e) :
    e.dayNumber = d.dayNumber + days :=
  dayNumber_of_ofDayNumber? h

end Date

end LineCalc
