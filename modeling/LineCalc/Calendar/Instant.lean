import LineCalc.Calendar.Date
import LineCalc.Calendar.TimeOfDay

/-!
# Instants

An instant is a time on a date. Instants move by whole milliseconds, and the difference of two of
them is counted in milliseconds, toward zero.
-/

namespace LineCalc

/-- A date and a time of day. -/
structure Instant where
  date : Date
  time : TimeOfDay
  deriving DecidableEq, Inhabited

namespace Instant

def startOf (date : Date) : Instant := ⟨date, .midnight⟩

/-- The instant some milliseconds later, or earlier, unless it lies outside the calendar. -/
def advance? (i : Instant) (millis : Int) : Option Instant :=
  let (time, days) := i.time.advance millis
  (i.date.addDays? days).map (⟨·, time⟩)

/-- Nanoseconds from the second instant to the first. -/
def nanosSince (later earlier : Instant) : Int :=
  (later.date.dayNumber - earlier.date.dayNumber) * (secondsPerDay * nanosPerSecond : Nat) +
    later.time.nanosSince earlier.time

/-- Whole milliseconds from the second instant to the first. -/
def millisSince (later earlier : Instant) : Int :=
  (later.nanosSince earlier).tdiv nanosPerMilli

end Instant

end LineCalc
