/-!
# Times of day

A time counts whole seconds from midnight and nanoseconds on top of them. A second may be followed
by a leap second: a time within it has a thousand million nanoseconds or more on top of the second
before.
-/

namespace LineCalc

def nanosPerSecond : Nat := 1000000000

def nanosPerMilli : Nat := 1000000

def secondsPerDay : Nat := 86400

def millisPerDay : Nat := 86400000

/-- A time between midnight and midnight. -/
structure TimeOfDay where
  /-- Whole seconds since midnight. -/
  second : Nat
  /-- Nanoseconds since the start of that second. -/
  nanosecond : Nat
  /-- The day has not ended. -/
  second_lt : second < secondsPerDay
  /-- The second has not ended, or a leap second follows it. -/
  nanosecond_lt : nanosecond < 2 * nanosPerSecond
  deriving DecidableEq

namespace TimeOfDay

def midnight : TimeOfDay := ⟨0, 0, by decide, by decide⟩

instance : Inhabited TimeOfDay := ⟨midnight⟩

def isLeap (t : TimeOfDay) : Bool :=
  nanosPerSecond ≤ t.nanosecond

/-- The time of an hour, a minute and a second; a second numbered 60 is a leap second. -/
def ofParts? (hour minute second : Nat) : Option TimeOfDay :=
  if h : hour < 24 ∧ minute < 60 ∧ second < 60 then
    some ⟨hour * 3600 + minute * 60 + second, 0, by simp only [secondsPerDay]; omega, by decide⟩
  else if h : hour < 24 ∧ minute < 60 ∧ second = 60 then
    some ⟨hour * 3600 + minute * 60 + 59, nanosPerSecond,
      by simp only [secondsPerDay]; omega, by decide⟩
  else none

/-- The same time with a fraction of a second added to it. -/
def withFraction (t : TimeOfDay) (nanos : Nat) (h : t.nanosecond + nanos < 2 * nanosPerSecond) :
    TimeOfDay :=
  { t with nanosecond := t.nanosecond + nanos, nanosecond_lt := h }

/-- Nanoseconds since midnight; a leap second counts as a second of its own. -/
def nanos (t : TimeOfDay) : Nat :=
  t.second * nanosPerSecond + t.nanosecond

/-- The time some nanoseconds after midnight, and the number of midnights passed on the way. -/
def ofNanos (n : Int) : TimeOfDay × Int :=
  let second := n / nanosPerSecond
  (⟨(second % secondsPerDay).toNat, (n % nanosPerSecond).toNat,
    by simp only [secondsPerDay]; omega, by simp only [nanosPerSecond]; omega⟩,
    second / secondsPerDay)

/-- Moving by `millis` does not leave the leap second that the time lies in. -/
def StaysInLeap (t : TimeOfDay) (millis : Int) : Prop :=
  t.isLeap = true ∧ -1000 < millis ∧ millis < 1000 ∧
    t.nanosecond + millis * nanosPerMilli < (2 * nanosPerSecond : Nat)

instance (t : TimeOfDay) (millis : Int) : Decidable (t.StaysInLeap millis) :=
  inferInstanceAs (Decidable (_ ∧ _))

/--
The time some milliseconds later, or earlier, and the number of midnights passed on the way. A leap
second that is left forward counts as the second before it, and one that is left backward as the
second after; a move that stays within one does not leave the second it belongs to.
-/
def advance (t : TimeOfDay) (millis : Int) : TimeOfDay × Int :=
  let delta := millis * nanosPerMilli
  if h : t.StaysInLeap millis then
    (⟨t.second, (t.nanosecond + delta).toNat, t.second_lt, by
      have hlt := h.2.2.2
      simp only [nanosPerSecond] at hlt ⊢
      omega⟩, 0)
  else if t.isLeap && 0 < millis then ofNanos (t.nanos - nanosPerSecond + delta)
  else ofNanos (t.nanos + delta)

/--
Nanoseconds from the second time to the first, on one day. A leap second that lies between them
counts.
-/
def nanosSince (later earlier : TimeOfDay) : Int :=
  let plain := (later.nanos : Int) - earlier.nanos
  if earlier.second < later.second && earlier.isLeap then plain + nanosPerSecond
  else if later.second < earlier.second && later.isLeap then plain - nanosPerSecond
  else plain

end TimeOfDay

end LineCalc
