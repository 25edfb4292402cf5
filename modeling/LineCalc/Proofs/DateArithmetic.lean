import LineCalc.Operation
import LineCalc.Proofs.Decimal.Nearest
import LineCalc.Proofs.Instants
import LineCalc.Proofs.ReadBack
import LineCalc.Proofs.Selection

/-!
# Dates moved and compared

A duration moves a date by whole milliseconds, and the way back is a move by as many of them: it
cannot leave the calendar, so a date that was moved comes back. The other way round, two dates differ
by a number of seconds; seconds and days are durations that are counted without a rounding, so what
lies between two dates moves the one to the other.

* **`shift_eq_ok_iff`**: where a duration moves a date.
* **`durationMillis_of_whole`**: durations of whole milliseconds are counted exactly.
* **`subtract_of_add`**: a date that was moved comes back.
* **`exists_difference`**, **`exists_daysUntil`**: what lies between two dates.
* **`add_of_subtract`**: what lies between two dates moves the one to the other.
-/

namespace LineCalc

open Decimal

/-! ## Moves -/

section Moves

variable {i : Instant} {hasTime : Bool} {offset : Quantity} {backward : Bool} {v : Value}

/-- A duration moves an instant by its milliseconds, if the calendar has an instant there. -/
theorem shift_eq_ok_iff :
    shift (.moment i hasTime) offset backward = .ok v ↔
      offset.unit.family = MeasureUnit.durationFamily ∧
        ∃ millis, durationMillis offset = .ok millis ∧
          ∃ j, i.advance? (if backward then -millis else millis) = some j ∧
            v = .moment j (hasTime || millis % millisPerDay != 0) := by
  have hsign : ∀ millis : Int, ((if backward then -millis else millis) % millisPerDay != 0) =
      (millis % millisPerDay != 0) := by
    intro millis
    rw [Bool.eq_iff_iff, bne_iff_ne, bne_iff_ne]
    simp only [millisPerDay]
    split <;> omega
  simp only [shift]
  split
  · rename_i hfamily
    constructor
    · rintro ⟨⟩
    · rintro ⟨hduration, -⟩
      exact absurd hduration hfamily
  · rename_i hfamily
    rw [not_not] at hfamily
    rw [bind_eq_ok, and_iff_right hfamily]
    refine exists_congr fun millis => and_congr_right fun _ => ?_
    rw [shiftBy]
    split
    · rename_i j hadvance
      rw [hsign]
      constructor
      · rintro ⟨⟩
        exact ⟨j, hadvance, rfl⟩
      · rintro ⟨j', hadvance', rfl⟩
        rw [hadvance] at hadvance'
        cases hadvance'
        rfl
    · rename_i hnone
      simp [hnone]

end Moves

/-! ## Durations in milliseconds -/

theorem Decimal.truncate_of_toRat {d : Decimal} {k : Int} (h : d.toRat = k) : d.truncate = k := by
  rw [truncate, Rounding.divide_eq_toInt _ _ (pow10_pos _), cast_pow10]
  show Rounding.toInt .towardZero d.toRat = k
  rw [h, Rounding.toInt_intCast]

/-- Whole milliseconds are counted exactly, as long as 64 bits hold their number. -/
theorem durationMillis_of_whole {offset : Quantity} {k : Int}
    (h : offset.amount = k * nanosPerMilli) :
    durationMillis offset =
      if -millisBound ≤ k ∧ k < millisBound then .ok k else .error .overflow := by
  have hmilli : (nanosPerMilli : ℚ) = 10 ^ 6 := by norm_num [nanosPerMilli]
  have hunit : (Decimal.ofInt nanosPerMilli).toRat = 10 ^ 6 := by
    norm_num [toRat, ofInt, nanosPerMilli]
  have hproduct := map_toRat_mul? offset.value offset.unit.multiplier
  rw [← Quantity.amount, h, hmilli] at hproduct
  by_cases hsize : |(k : ℚ) * 10 ^ 6| < (mantissaBound : ℚ)
  · have hgrid : HasPlaces 0 ((k : ℚ) * 10 ^ 6) := ⟨k * 10 ^ 6, by push_cast; ring⟩
    rw [map_toRat_nearest?_of_lt (Nat.zero_le _) hgrid (by rwa [pow_zero, mul_one])] at hproduct
    obtain ⟨nanos, hnanos, hvalue⟩ := Option.map_eq_some_iff.1 hproduct
    obtain ⟨mode, -, hquotient⟩ := map_toRat_div? nanos (b := .ofInt nanosPerMilli)
      (by rw [hunit]; norm_num)
    have hless : |(k : ℚ)| * 10 ^ 0 < (mantissaBound : ℚ) := by
      rw [abs_mul_pow] at hsize
      refine lt_of_le_of_lt ?_ hsize
      exact mul_le_mul_of_nonneg_left (by norm_num) (abs_nonneg _)
    rw [hvalue, hunit, mul_div_cancel_right₀ _ (by norm_num),
      map_toRat_nearest?_of_lt (Nat.zero_le _) ⟨k, by rw [pow_zero, mul_one]⟩ hless] at hquotient
    obtain ⟨millis, hmillis, hcount⟩ := Option.map_eq_some_iff.1 hquotient
    simp only [durationMillis, hnanos, hmillis, inRange, truncate_of_toRat hcount, bind, Except.bind,
      pure, Except.pure, throw, throwThe, MonadExceptOf.throw]
  · have hnone : offset.value.mul? offset.unit.multiplier = none := by
      rwa [nearest?_eq_none (not_lt.1 hsize), Option.map_none, Option.map_eq_none_iff] at hproduct
    have houtside : ¬(-millisBound ≤ k ∧ k < millisBound) := by
      rintro ⟨hlow, hhigh⟩
      have habs : |(k : ℚ)| ≤ millisBound := by
        rw [abs_le]
        exact ⟨by exact_mod_cast hlow, by exact_mod_cast hhigh.le⟩
      refine hsize ?_
      rw [abs_mul_pow]
      calc |(k : ℚ)| * 10 ^ 6 ≤ millisBound * 10 ^ 6 :=
            mul_le_mul_of_nonneg_right habs (by norm_num)
        _ < mantissaBound := by norm_num [millisBound, mantissaBound]
    rw [if_neg houtside]
    simp only [durationMillis, hnone, inRange, bind, Except.bind]

/-! ## There and back -/

/--
Moving a date and moving it back: a duration from a date is the sum of the two in either order,
whatever comes of it. Outside of leap seconds, a date that was moved comes back by the same duration
to the instant it had; it has a time of day if it had one after the move, and if the duration is a
number of whole days it is the date that it was.
-/
theorem subtract_of_add (units : Registry) (i : Instant) (hasTime : Bool) (offset : Quantity) :
    (fromDate (.number offset) (.moment i hasTime) = add (.number offset) (.moment i hasTime) ∧
      add (.number offset) (.moment i hasTime) = add (.moment i hasTime) (.number offset)) ∧
    (i.time.isLeap = false → ∀ moved, add (.moment i hasTime) (.number offset) = .ok moved →
      ∃ (j : Instant) (movedHasTime : Bool), moved = .moment j movedHasTime ∧
        subtract units moved (.number offset) = .ok (.moment i movedHasTime) ∧
        ((∃ days : Int, offset.amount = days * nanosPerDay) →
          subtract units moved (.number offset) = .ok (.moment i hasTime))) := by
  refine ⟨⟨rfl, rfl⟩, fun hleap moved hadd => ?_⟩
  obtain ⟨hfamily, millis, hmillis, j, hadvance, rfl⟩ := shift_eq_ok_iff.1 hadd
  have hback : subtract units (.moment j (hasTime || millis % millisPerDay != 0)) (.number offset) =
      .ok (.moment i (hasTime || millis % millisPerDay != 0)) := by
    apply shift_eq_ok_iff.2
    refine ⟨hfamily, millis, hmillis, i, Instant.advance?_neg hleap hadvance, ?_⟩
    rw [Bool.or_assoc, Bool.or_self]
  refine ⟨j, _, rfl, hback, ?_⟩
  rintro ⟨days, hdays⟩
  have hcount : millis = days * millisPerDay := by
    have hwhole : offset.amount = ((days * millisPerDay : Int) : ℚ) * nanosPerMilli := by
      rw [hdays, nanosPerDay_eq]
      push_cast
      ring
    rw [durationMillis_of_whole hwhole] at hmillis
    split at hmillis <;> cases hmillis
    rfl
  rw [hback, hcount, Int.mul_emod_left]
  simp

/-- Two days before 1 March 2024 it is 28 February, and two days after that it is 1 March again. -/
theorem subtract_of_add_leapDay :
    let offset : Quantity := ⟨.ofInt (-2), Standard.durations[5]⟩
    let march : Date := ⟨19783, by decide⟩
    let february : Date := ⟨19781, by decide⟩
    march.civil = ⟨2024, 3, 1⟩ ∧ february.civil = ⟨2024, 2, 28⟩ ∧
      add (.ofDate march) (.number offset) = .ok (.ofDate february) ∧
      subtract .empty (.ofDate february) (.number offset) = .ok (.ofDate march) := by
  intro offset march february
  have hadd : add (.ofDate march) (.number offset) = .ok (.ofDate february) := by decide +kernel
  obtain ⟨j, hasTime, -, -, hwhole⟩ :=
    (subtract_of_add .empty (.startOf march) false offset).2 (by decide) (.ofDate february) hadd
  have hamount : offset.amount = (-2 : Int) * nanosPerDay := by
    norm_num [offset, Quantity.amount, toRat, Standard.durations, MeasureUnit.make, ofInt, nanosPerDay,
      secondsPerDay, nanosPerSecond]
  exact ⟨by decide, by decide, hadd, hwhole ⟨-2, hamount⟩⟩

/-! ## What lies between two dates -/

namespace Decimal

theorem normalize_neg (d : Decimal) : d.neg.normalize = d.normalize.neg := by
  have hreduced : d.normalize.neg.scale = 0 ∨ d.normalize.neg.mantissa % 10 ≠ 0 := by
    have h := d.reduced_normalize
    simp only [neg]
    omega
  rw [← normalize_of_reduced hreduced]
  apply normalize_congr
  rw [toRat_neg, toRat_neg, toRat_normalize]

end Decimal

section Between

variable {a b : Instant} {k : Int}

/-- The calendar is short enough for 64 bits to hold the milliseconds between any two instants. -/
theorem millis_lt_bound (ha : a.time.isLeap = false) (hb : b.time.isLeap = false)
    (h : a.nanosSince b = k * nanosPerMilli) : -millisBound < k ∧ k < millisBound := by
  have haTime := TimeOfDay.nanos_lt ha
  have hbTime := TimeOfDay.nanos_lt hb
  have haDate := a.date.in_range
  have hbDate := b.date.in_range
  rw [Instant.nanosSince_eq ha hb, Instant.nanos, Instant.nanos] at h
  simp only [nanosPerDay, secondsPerDay, nanosPerSecond, nanosPerMilli, firstDay, lastDay] at *
  simp only [millisBound]
  omega

/-- A duration as long as the time between two instants moves the one to the other. -/
theorem add_of_nanosSince {offset : Quantity} (bHasTime : Bool) (ha : a.time.isLeap = false)
    (hb : b.time.isLeap = false) (hfamily : offset.unit.family = MeasureUnit.durationFamily)
    (hamount : offset.amount = k * nanosPerMilli) (h : a.nanosSince b = k * nanosPerMilli) :
    add (.moment b bHasTime) (.number offset) =
      .ok (.moment a (bHasTime || k % millisPerDay != 0)) := by
  obtain ⟨hlow, hhigh⟩ := millis_lt_bound ha hb h
  apply shift_eq_ok_iff.2
  refine ⟨hfamily, k, ?_, a, ?_, rfl⟩
  · rw [durationMillis_of_whole hamount, if_pos ⟨hlow.le, hhigh⟩]
  · apply (Instant.advance?_eq_some_iff hb).2
    refine ⟨ha, ?_⟩
    rw [Instant.nanosSince_eq ha hb] at h
    rw [if_neg Bool.false_ne_true]
    omega

/-- Seconds with three places hold milliseconds exactly, with either sign. -/
theorem exists_secondsOfMillis (h : k.natAbs < mantissaBound) :
    ∃ d, secondsOfMillis k = .ok d ∧ secondsOfMillis (-k) = .ok d.neg ∧ d.toRat = k / 10 ^ 3 := by
  have hplaces : 3 ≤ maxScale := by decide
  have hneg : (-k).natAbs < mantissaBound := by rwa [Int.natAbs_neg]
  refine ⟨(ofScaled k 3 h hplaces).normalize, ?_, ?_, ?_⟩
  · rw [secondsOfMillis, ofScaled?_of_fits hplaces h]
    rfl
  · rw [secondsOfMillis, ofScaled?_of_fits hplaces hneg, ← normalize_neg]
    rfl
  · rw [toRat_normalize]
    rfl

end Between

/-! ### Seconds and days -/

section Units

variable {units : Registry} {a b : Instant} {k : Int}

/-- A unit of time that the registry has under a name, so many nanoseconds long. -/
structure TimeUnit (units : Registry) (name : String) (nanos : Nat) (u : MeasureUnit) : Prop where
  required : requireUnit units name = .ok u
  family : u.family = MeasureUnit.durationFamily
  size : u.multiplier.toRat = nanos

variable {second day : MeasureUnit}

/-- Two instants differ by as many seconds as lie between them, in either direction. -/
theorem exists_difference (hunit : TimeUnit units "s" nanosPerSecond second)
    (ha : a.time.isLeap = false) (hb : b.time.isLeap = false)
    (h : a.nanosSince b = k * nanosPerMilli) :
    ∃ d : Decimal,
      difference units a b = .ok (.number ⟨d, second⟩) ∧
        difference units b a = .ok (.number ⟨d.neg, second⟩) ∧
        Quantity.amount ⟨d, second⟩ = k * nanosPerMilli := by
  have hmillis : a.millisSince b = k ∧ b.millisSince a = -k := by
    rw [Instant.millisSince, Instant.millisSince, Instant.nanosSince_comm a b, h, ← Int.neg_mul,
      Int.mul_tdiv_cancel _ (by decide), Int.mul_tdiv_cancel _ (by decide)]
    exact ⟨rfl, rfl⟩
  have hroom : k.natAbs < mantissaBound := by
    obtain ⟨hlow, hhigh⟩ := millis_lt_bound ha hb h
    have hbound : millisBound < mantissaBound := by decide
    omega
  obtain ⟨d, hseconds, hback, hvalue⟩ := exists_secondsOfMillis hroom
  refine ⟨d, ?_, ?_, ?_⟩
  · simp only [difference, hunit.required, hmillis.1, hseconds, bind, Except.bind, pure, Except.pure]
  · simp only [difference, hunit.required, hmillis.2, hback, bind, Except.bind, pure, Except.pure]
  · rw [Quantity.amount, hvalue, hunit.size]
    norm_num [nanosPerSecond, nanosPerMilli]
    ring

/-- The days until a date are as long as the time from the start of today to the start of it. -/
theorem exists_daysUntil (hunit : TimeUnit units "day" nanosPerDay day) (today : Date)
    (target : Instant) (hasTime : Bool) :
    ∃ d : Decimal,
      daysUntil units today (.moment target hasTime) = .ok (.number ⟨d, day⟩) ∧
        Quantity.amount ⟨d, day⟩ =
          ((target.date.dayNumber - today.dayNumber) * millisPerDay : Int) * nanosPerMilli := by
  have hroom : (target.date.dayNumber - today.dayNumber).natAbs < mantissaBound := by
    have htoday := today.in_range
    have htarget := target.date.in_range
    have hbound : lastDay - firstDay < mantissaBound := by decide
    omega
  refine ⟨ofScaled _ 0 hroom (Nat.zero_le _), ?_, ?_⟩
  · simp only [daysUntil, hunit.required, ofScaled?_of_fits (Nat.zero_le _) hroom, inRange, bind,
      Except.bind, pure, Except.pure]
  · rw [Quantity.amount, hunit.size, nanosPerDay_eq]
    simp only [toRat, ofScaled, pow_zero, div_one]
    push_cast
    ring

end Units

namespace Standard

theorem second_timeUnit : TimeUnit Config.standard.units "s" nanosPerSecond durations[2] where
  required := by
    rw [requireUnit_eq_ok, units_standard]
    exact registered_units.2 _ (by decide +kernel) _ (by decide +kernel)
  family := by decide
  size := by norm_num [durations, simpleUnit, MeasureUnit.make, toRat, ofInt, nanosPerSecond]

theorem day_timeUnit : TimeUnit Config.standard.units "day" nanosPerDay durations[5] where
  required := by
    rw [requireUnit_eq_ok, units_standard]
    exact registered_units.2 _ (by decide +kernel) _ (by decide +kernel)
  family := by decide
  size := by
    norm_num [durations, simpleUnit, MeasureUnit.make, toRat, ofInt, nanosPerDay, secondsPerDay,
      nanosPerSecond]

end Standard

open Standard

/--
What lies between two dates moves the one to the other. Outside of leap seconds, instants that are
whole milliseconds apart differ by a duration that leads from the one to the other, and by its
negation the other way round; the result has a time of day if it had one before or if they are not
whole days apart. And the days until any date lead from today to that date, whatever its time of day.
-/
theorem add_of_subtract :
    (∀ (a b : Instant) (aHasTime bHasTime : Bool), a.time.isLeap = false → b.time.isLeap = false →
      (nanosPerMilli : Int) ∣ a.nanosSince b →
      ∃ q : Quantity,
        subtract Config.standard.units (.moment a aHasTime) (.moment b bHasTime) = .ok (.number q) ∧
          add (.moment b bHasTime) (.number q) =
            .ok (.moment a (bHasTime || !decide ((nanosPerDay : Int) ∣ a.nanosSince b))) ∧
          subtract Config.standard.units (.moment b bHasTime) (.moment a aHasTime) =
            negate (.number q)) ∧
    ∀ (latestFirst : List Value) (now target : Instant) (hasTime : Bool),
      ∃ (today : Value) (days : Quantity),
        Aggregate.today.value latestFirst now = .ok today ∧
          daysUntil Config.standard.units now.date (.moment target hasTime) = .ok (.number days) ∧
          add today (.number days) = .ok (.ofDate target.date) := by
  constructor
  · intro a b aHasTime bHasTime ha hb hwhole
    obtain ⟨k, hk⟩ := hwhole
    rw [Int.mul_comm] at hk
    obtain ⟨d, hforth, hback, hamount⟩ := exists_difference second_timeUnit ha hb hk
    refine ⟨⟨d, durations[2]⟩, hforth, ?_, hback⟩
    have hdays : (k % millisPerDay != 0) = !decide ((nanosPerDay : Int) ∣ a.nanosSince b) := by
      rw [Bool.eq_iff_iff, bne_iff_ne, Bool.not_eq_true', decide_eq_false_iff_not, hk]
      simp only [nanosPerDay, millisPerDay, nanosPerMilli, secondsPerDay, nanosPerSecond]
      omega
    rw [← hdays]
    exact add_of_nanosSince bHasTime ha hb second_timeUnit.family hamount hk
  · intro latestFirst now target hasTime
    obtain ⟨d, hdays, hamount⟩ := exists_daysUntil day_timeUnit now.date target hasTime
    refine ⟨_, ⟨d, durations[5]⟩, rfl, hdays, ?_⟩
    have hstart : (Instant.startOf target.date).nanosSince (.startOf now.date) =
        (target.date.dayNumber - now.date.dayNumber) * millisPerDay * nanosPerMilli := by
      rw [Instant.nanosSince_eq rfl rfl, Instant.nanos_startOf, Instant.nanos_startOf]
      simp only [nanosPerDay, millisPerDay, nanosPerMilli, secondsPerDay, nanosPerSecond]
      omega
    have hadd := add_of_nanosSince false (by rfl) (by rfl) day_timeUnit.family hamount hstart
    rw [Int.mul_emod_left] at hadd
    exact hadd

/-- From 28 February 2024 to noon of 1 March, over the leap day. -/
theorem add_of_subtract_leapDay :
    let february : Instant := .startOf ⟨19781, by decide⟩
    let march : Instant := ⟨⟨19783, by decide⟩, ⟨43200, 0, by decide, by decide⟩⟩
    ∃ q : Quantity,
      subtract Config.standard.units (.moment march true) (.moment february false) =
          .ok (.number q) ∧
        add (.moment february false) (.number q) = .ok (.moment march true) ∧
        subtract Config.standard.units (.moment february false) (.moment march true) =
          negate (.number q) := by
  intro february march
  obtain ⟨q, hforth, hadd, hback⟩ :=
    add_of_subtract.1 march february true false (by decide) (by decide) (by decide)
  have hpartial : (false || !decide ((nanosPerDay : Int) ∣ march.nanosSince february)) = true := by
    decide
  rw [hpartial] at hadd
  exact ⟨q, hforth, hadd, hback⟩

end LineCalc
