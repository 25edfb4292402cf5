import LineCalc.Calendar.Instant

/-!
# Instants on one scale

Outside of leap seconds an instant is determined by the nanoseconds since the start of 1 January 1970,
and moving it adds to them. So a move leads to an instant exactly if that instant is so many
milliseconds away: the calendar holds it already, the time of day is the one it has, and the way back
leads to where the move came from.

* **`Instant.nanos`**: nanoseconds since the start of 1 January 1970.
* **`Instant.advance?_eq_some_iff`**: where a move leads.
* **`Instant.advance?_neg`**: the way back.
* **`Instant.nanosSince_eq`**: what lies between two instants.
-/

namespace LineCalc

def nanosPerDay : Nat := secondsPerDay * nanosPerSecond

theorem nanosPerDay_eq : nanosPerDay = millisPerDay * nanosPerMilli := rfl

/-! ## Times of day -/

namespace TimeOfDay

variable {t u : TimeOfDay}

theorem nanosecond_lt_of_not_isLeap (h : t.isLeap = false) : t.nanosecond < nanosPerSecond := by
  rw [isLeap, decide_eq_false_iff_not] at h
  omega

theorem nanos_lt (h : t.isLeap = false) : t.nanos < nanosPerDay := by
  have hsecond := t.second_lt
  have hnanosecond := nanosecond_lt_of_not_isLeap h
  simp only [nanos, nanosPerDay, secondsPerDay, nanosPerSecond] at *
  omega

/-- Outside of leap seconds, times with as many nanoseconds since midnight are the same. -/
theorem eq_of_nanos (ht : t.isLeap = false) (hu : u.isLeap = false) (h : t.nanos = u.nanos) :
    t = u := by
  have htNanos := nanosecond_lt_of_not_isLeap ht
  have huNanos := nanosecond_lt_of_not_isLeap hu
  simp only [nanos, nanosPerSecond] at h htNanos huNanos
  have hsecond : t.second = u.second := by omega
  have hnanosecond : t.nanosecond = u.nanosecond := by omega
  cases t
  cases u
  simp only at hsecond hnanosecond
  subst hsecond hnanosecond
  rfl

theorem isLeap_ofNanos (n : Int) : (ofNanos n).1.isLeap = false := by
  rw [isLeap, decide_eq_false_iff_not]
  simp only [ofNanos, nanosPerSecond]
  omega

/-- The time and the midnights passed are the nanoseconds again. -/
theorem nanos_ofNanos (n : Int) :
    (ofNanos n).2 * nanosPerDay + ((ofNanos n).1.nanos : Int) = n := by
  simp only [ofNanos, nanos, nanosPerDay, secondsPerDay, nanosPerSecond]
  omega

theorem advance_of_not_isLeap (h : t.isLeap = false) (millis : Int) :
    t.advance millis = ofNanos (t.nanos + millis * nanosPerMilli) := by
  have hstays : ¬t.StaysInLeap millis := by
    rintro ⟨hleap, -⟩
    rw [h] at hleap
    cases hleap
  simp only [advance, dif_neg hstays, h, Bool.false_and, Bool.false_eq_true, if_false]

end TimeOfDay

/-! ## Instants -/

namespace Instant

variable {i j : Instant}

/-- Nanoseconds since the start of 1 January 1970. -/
def nanos (i : Instant) : Int :=
  i.date.dayNumber * nanosPerDay + i.time.nanos

/-- Outside of leap seconds, the day and the time are the quotient and the remainder by a day. -/
theorem parts_of_nanos {day : Int} {t : TimeOfDay} (hi : i.time.isLeap = false)
    (ht : t.isLeap = false) (h : i.nanos = day * nanosPerDay + t.nanos) :
    i.date.dayNumber = day ∧ i.time = t := by
  have hiNanos := TimeOfDay.nanos_lt hi
  have htNanos := TimeOfDay.nanos_lt ht
  simp only [nanos, nanosPerDay, secondsPerDay, nanosPerSecond] at h hiNanos htNanos
  refine ⟨by omega, TimeOfDay.eq_of_nanos hi ht (by omega)⟩

/-- A move leads to the instant, outside of leap seconds, that is so many milliseconds away. -/
theorem advance?_eq_some_iff (hi : i.time.isLeap = false) {millis : Int} :
    i.advance? millis = some j ↔
      j.time.isLeap = false ∧ j.nanos = i.nanos + millis * nanosPerMilli := by
  have hmoved := TimeOfDay.nanos_ofNanos (i.time.nanos + millis * nanosPerMilli)
  have hleap := TimeOfDay.isLeap_ofNanos (i.time.nanos + millis * nanosPerMilli)
  rw [advance?, TimeOfDay.advance_of_not_isLeap hi]
  generalize TimeOfDay.ofNanos (i.time.nanos + millis * nanosPerMilli) = moved at hmoved hleap
  obtain ⟨time, days⟩ := moved
  simp only at hmoved hleap
  have hsum : (i.date.dayNumber + days) * nanosPerDay + (time.nanos : Int) =
      i.nanos + millis * nanosPerMilli := by
    rw [nanos, Int.add_mul]
    omega
  simp only [Option.map_eq_some_iff]
  constructor
  · rintro ⟨date, hdate, rfl⟩
    refine ⟨hleap, ?_⟩
    rw [nanos, Date.dayNumber_of_addDays? hdate]
    exact hsum
  · rintro ⟨hj, hnanos⟩
    obtain ⟨hday, htime⟩ := parts_of_nanos hj hleap (hnanos.trans hsum.symm)
    refine ⟨j.date, ?_, ?_⟩
    · rw [Date.addDays?, ← hday]
      exact Date.ofDayNumber?_dayNumber j.date
    · rw [← htime]

/-- The way back leads to where a move came from, and stays in the calendar. -/
theorem advance?_neg (hi : i.time.isLeap = false) {millis : Int} (h : i.advance? millis = some j) :
    j.advance? (-millis) = some i := by
  obtain ⟨hj, hnanos⟩ := (advance?_eq_some_iff hi).1 h
  apply (advance?_eq_some_iff hj).2
  refine ⟨hi, ?_⟩
  rw [hnanos, Int.neg_mul]
  omega

theorem nanosSince_eq (hi : i.time.isLeap = false) (hj : j.time.isLeap = false) :
    i.nanosSince j = i.nanos - j.nanos := by
  have htime : i.time.nanosSince j.time = (i.time.nanos : Int) - j.time.nanos := by
    simp [TimeOfDay.nanosSince, hi, hj]
  rw [nanosSince, htime, nanos, nanos, Int.sub_mul]
  simp only [nanosPerDay]
  omega

/-- Between two instants there is the same from both sides, with the opposite sign. -/
theorem nanosSince_comm (i j : Instant) : j.nanosSince i = -i.nanosSince j := by
  have htime : j.time.nanosSince i.time = -i.time.nanosSince j.time := by
    unfold TimeOfDay.nanosSince
    simp only [Bool.and_eq_true, decide_eq_true_eq]
    split <;> split <;> omega
  rw [nanosSince, nanosSince, htime]
  simp only [secondsPerDay, nanosPerSecond]
  omega

theorem nanos_startOf (date : Date) : (startOf date).nanos = date.dayNumber * nanosPerDay := by
  have hmidnight : TimeOfDay.midnight.nanos = 0 := by simp [TimeOfDay.nanos, TimeOfDay.midnight]
  simp only [nanos, startOf, hmidnight]
  omega

end Instant

end LineCalc
