import LineCalc.Proofs.Decimal.Within
import LineCalc.Proofs.Totals
import Mathlib.Algebra.Order.BigOperators.Group.List
import Mathlib.Data.Finset.Max

/-!
# Averages

Numbers of few places are added up without rounding as long as the totals on the way have room for
these places. So a run of such lines in one unit, a percentage too, comes to its exact sum, in
whatever order the lines stand. The mean is a single rounded quotient after that. It stays between
the smallest and the largest of the lines, because both of them are on the grid that it is rounded
on.

* **`UniformRun`**: the lines of a run that are in one unit, short and not too many.
* **`addOrKeep_exact`**, **`foldl_addOrKeep_exact`**: what one line and what a run adds to a total.
* **`Decimal.between_of_div?`**: a quotient between two short numbers is rounded to between them.
* **`UniformRun.average_within_run`**: what `sum` and `average` give, in any order of the lines.
-/

namespace LineCalc

/-- Two quantities are the same if their numbers and their units are, however both are written. -/
def Quantity.Same (p q : Quantity) : Prop :=
  p.value.sameNumber q.value = true ∧ p.unit.sameAs q.unit = true

/--
Lines that are in one unit and short: at most four places, no more than 10^15 in magnitude, and at
least one but at most 10^9 of them.
-/
structure UniformRun (unit : MeasureUnit) (run : List Quantity) : Prop where
  ne_nil : run ≠ []
  length_le : run.length ≤ 10 ^ 9
  unit : ∀ q ∈ run, q.unit.sameAs unit = true
  places : ∀ q ∈ run, HasPlaces 4 q.value.toRat
  bounded : ∀ q ∈ run, |q.value.toRat| ≤ 10 ^ 15

/-- The sum of the numbers of a run, without rounding. -/
def exactTotal (run : List Quantity) : ℚ :=
  (run.map fun q => q.value.toRat).sum

/-! ## Totals of short numbers -/

/-- A number that so many short numbers can come to. -/
def TotalOf (count : Nat) (x : ℚ) : Prop :=
  Within 4 (count * 10 ^ 15) x

namespace TotalOf

variable {m n : Nat} {x y : ℚ}

theorem add (hx : TotalOf m x) (hy : TotalOf n y) : TotalOf (m + n) (x + y) := by
  rw [TotalOf, Nat.cast_add, add_mul]
  exact Within.add hx hy

/-- There is room for four places up to 10^9 short numbers. -/
theorem fits {m : Nat} (hm : m ≤ 10 ^ 9) : (m * 10 ^ 15 : ℚ) * 10 ^ 4 < mantissaBound := by
  have hle : m * 10 ^ 15 * 10 ^ 4 ≤ 10 ^ 9 * 10 ^ 15 * 10 ^ 4 := by omega
  have hroom : 10 ^ 9 * 10 ^ 15 * 10 ^ 4 < mantissaBound := by norm_num [mantissaBound]
  exact_mod_cast hle.trans_lt hroom

end TotalOf

/-- What counts as one unit counts as the same. -/
theorem MeasureUnit.sameAs_of_both {u v w : MeasureUnit} (hu : u.sameAs w = true)
    (hv : v.sameAs w = true) : u.sameAs v = true := by
  rw [sameAs_iff] at hu hv ⊢
  exact ⟨hu.1.trans hv.1.symm, hu.2.trans hv.2.symm⟩

/-- In one unit the numbers are added, be it a plain number, a percentage or an amount. -/
theorem Arithmetic.add_of_sameAs {a b : Quantity} (h : b.unit.sameAs a.unit = true) :
    add.onQuantities a b = (inRange (a.value.add? b.value)).map (⟨·, a.unit⟩) := by
  have hfamily : b.unit.family = a.unit.family := (MeasureUnit.sameAs_iff.1 h).1
  have hpercent : b.unit.isPercent = a.unit.isPercent := by
    simp only [MeasureUnit.isPercent, hfamily]
  have hunitless : b.unit.isUnitless = a.unit.isUnitless := by
    simp only [MeasureUnit.isUnitless, hfamily]
  have hconvert : b.convertTo a.unit = .ok b := by rw [Quantity.convertTo, if_pos h]
  have halign : add.align a b = .ok (a.value, b.value, a.unit) := by
    simp [align, mixes, hpercent, hunitless, hconvert]
  rw [onQuantities, hpercent, Bool.and_not_self, if_neg Bool.false_ne_true, halign]
  simp only [bind, Except.bind, onDecimals]
  cases inRange (a.value.add? b.value) <;> rfl

/-- A line in the unit of the total adds its number, if both are short. -/
theorem addOrKeep_exact {total next : Quantity} {count : Nat}
    (hunit : next.unit.sameAs total.unit = true) (htotal : TotalOf count total.value.toRat)
    (hnext : TotalOf 1 next.value.toRat) (hcount : count + 1 ≤ 10 ^ 9) :
    (addOrKeep total next).unit = total.unit ∧
      (addOrKeep total next).value.toRat = total.value.toRat + next.value.toRat := by
  have hsum := htotal.add hnext
  obtain ⟨d, hd, hvalue⟩ :=
    Within.exists_exact hsum (by decide) (TotalOf.fits hcount) (Decimal.map_toRat_add? _ _)
  have hadd : addOrKeep total next = ⟨d, total.unit⟩ := by
    rw [addOrKeep, Arithmetic.add_of_sameAs hunit, hd]
    rfl
  rw [hadd]
  exact ⟨rfl, hvalue⟩

/-- So does each of the lines that follow. -/
theorem foldl_addOrKeep_exact {rest : List Quantity} {total : Quantity} {count : Nat}
    (hunit : ∀ q ∈ rest, q.unit.sameAs total.unit = true)
    (htotal : TotalOf count total.value.toRat) (hrest : ∀ q ∈ rest, TotalOf 1 q.value.toRat)
    (hcount : count + rest.length ≤ 10 ^ 9) :
    (rest.foldl addOrKeep total).unit = total.unit ∧
      (rest.foldl addOrKeep total).value.toRat = total.value.toRat + exactTotal rest := by
  -- induction on the lines: the total so far is exact, and what is to come still fits
  induction rest generalizing total count with
  | nil => exact ⟨rfl, (add_zero _).symm⟩
  | cons next rest ih =>
    rw [List.length_cons] at hcount
    obtain ⟨hnext, hothers⟩ := List.forall_mem_cons.1 hrest
    obtain ⟨hnextUnit, hothersUnit⟩ := List.forall_mem_cons.1 hunit
    obtain ⟨hsumUnit, hsum⟩ := addOrKeep_exact hnextUnit htotal hnext (by omega)
    have hsumTotal : TotalOf (count + 1) (addOrKeep total next).value.toRat :=
      hsum ▸ htotal.add hnext
    obtain ⟨hafterUnit, hafter⟩ :=
      ih (by rwa [hsumUnit]) hsumTotal hothers (by omega)
    refine ⟨hafterUnit.trans hsumUnit, ?_⟩
    rw [List.foldl_cons, hafter, hsum, exactTotal, exactTotal, List.map_cons, List.sum_cons,
      add_assoc]

/-! ## Means -/

/-- The mean of some numbers is not below the smallest and not above the largest of them. -/
theorem mean_bounds {xs : List ℚ} (hne : xs ≠ []) {low high : ℚ}
    (h : ∀ x ∈ xs, low ≤ x ∧ x ≤ high) : low ≤ xs.sum / xs.length ∧ xs.sum / xs.length ≤ high := by
  have hpos : (0 : ℚ) < xs.length := by exact_mod_cast List.length_pos_iff.2 hne
  have hlow := xs.card_nsmul_le_sum low fun x hx => (h x hx).1
  have hhigh := xs.sum_le_card_nsmul high fun x hx => (h x hx).2
  rw [nsmul_eq_mul, mul_comm] at hlow hhigh
  exact ⟨(le_div_iff₀ hpos).2 hlow, (div_le_iff₀ hpos).2 hhigh⟩

/-- A quotient between two numbers of few places is rounded to between them. -/
theorem Decimal.between_of_div? {a b d : Decimal} {places : Nat} {low high : ℚ}
    (hb : b.toRat ≠ 0) (h : a.div? b = some d) (hplaces : places ≤ maxScale)
    (hlow : HasPlaces places low) (hhigh : HasPlaces places high)
    (hbetween : low ≤ a.toRat / b.toRat ∧ a.toRat / b.toRat ≤ high) {n : Nat}
    (hn : n < mantissaBound) (hfits : |a.toRat / b.toRat| * 10 ^ places ≤ n) :
    low ≤ d.toRat ∧ d.toRat ≤ high := by
  obtain ⟨mode, -, -, e, hnearest, hvalue⟩ := exists_nearest?_of_div? hb h
  -- the quotient has room for the places, so that it is rounded on a grid with both numbers
  have hscale : places ≤ e.scale :=
    le_scale_of_nearest? hplaces hnearest (not_overflows_of_le hn (by rwa [abs_mul_pow]))
  rw [← hvalue]
  exact ⟨le_toRat_of_nearest? le_rfl hnearest (hlow.mono hscale) hbetween.1,
    toRat_le_of_nearest? le_rfl hnearest (hhigh.mono hscale) hbetween.2⟩

/-- Quotients of one number by a divisor of at most 64 bits are the same, however it is written. -/
theorem Decimal.toRat_div?_congr {a b c d e : Decimal} (hc : c.toRat ≠ 0)
    (hword : c.mantissa.natAbs < wordBound) (hab : a.toRat = b.toRat) (hd : a.div? c = some d)
    (he : b.div? c = some e) : d.toRat = e.toRat := by
  obtain ⟨mode, -, hmode, d', hd', hdValue⟩ := exists_nearest?_of_div? hc hd
  obtain ⟨mode', -, hmode', e', he', heValue⟩ := exists_nearest?_of_div? hc he
  rw [hmode hword, hab] at hd'
  rw [hmode' hword, hd'] at he'
  rw [← hdValue, ← heValue, Option.some_inj.1 he']

namespace UniformRun

open Calculator (afterLines)

variable {unit : MeasureUnit} {run other : List Quantity}

theorem perm (h : UniformRun unit run) (hperm : other.Perm run) : UniformRun unit other where
  ne_nil := fun hnil => h.ne_nil (List.nil_perm.1 (hnil ▸ hperm))
  length_le := hperm.length_eq ▸ h.length_le
  unit := fun q hq => h.unit q (hperm.mem_iff.1 hq)
  places := fun q hq => h.places q (hperm.mem_iff.1 hq)
  bounded := fun q hq => h.bounded q (hperm.mem_iff.1 hq)

theorem totalOf (h : UniformRun unit run) {q : Quantity} (hq : q ∈ run) :
    TotalOf 1 q.value.toRat where
  grid := h.places q hq
  size := by
    rw [Nat.cast_one, one_mul]
    exact h.bounded q hq

/-- The lines come to their exact sum. -/
theorem exists_runTotal (h : UniformRun unit run) :
    ∃ total, runTotal run = some total ∧ total.unit.sameAs unit = true ∧
      total.value.toRat = exactTotal run := by
  obtain ⟨first, rest, rfl⟩ := List.exists_cons_of_ne_nil h.ne_nil
  have hfirst : first ∈ first :: rest := List.mem_cons_self ..
  have hunit : ∀ q ∈ rest, q.unit.sameAs first.unit = true := fun q hq =>
    MeasureUnit.sameAs_of_both (h.unit q (List.mem_cons_of_mem _ hq)) (h.unit first hfirst)
  have hlength := h.length_le
  rw [List.length_cons] at hlength
  obtain ⟨htotalUnit, htotal⟩ := foldl_addOrKeep_exact hunit (h.totalOf hfirst)
    (fun q hq => h.totalOf (List.mem_cons_of_mem _ hq)) (by omega)
  refine ⟨_, rfl, by rw [htotalUnit]; exact h.unit first hfirst, ?_⟩
  rw [htotal, exactTotal, exactTotal, List.map_cons, List.sum_cons]

/-- Their number is a decimal, and it has few bits. -/
theorem exists_count (h : UniformRun unit run) :
    ∃ count, Decimal.ofScaled? run.length 0 = some count ∧ count.toRat = run.length ∧
      count.toRat ≠ 0 ∧ count.mantissa.natAbs < Decimal.wordBound := by
  have hlength := h.length_le
  have hword : run.length < Decimal.wordBound := Nat.lt_of_le_of_lt hlength (by decide)
  have hbits : run.length < mantissaBound := Nat.lt_of_le_of_lt hlength (by decide)
  obtain ⟨count, hcount, hvalue⟩ := Decimal.exists_count hbits
  refine ⟨count, hcount, hvalue, ?_, ?_⟩
  · rw [hvalue]
    exact_mod_cast (List.length_pos_iff.2 h.ne_nil).ne'
  · rw [Decimal.ofScaled?_of_fits (Nat.zero_le _) (by rwa [Int.natAbs_natCast])] at hcount
    rw [← Option.some_inj.1 hcount]
    exact hword

/-- The mean of the lines exists, and it is the quotient of their sum and their number. -/
theorem exists_runAverage (h : UniformRun unit run) {total : Quantity}
    (htotal : runTotal run = some total) {count : Decimal}
    (hcount : Decimal.ofScaled? run.length 0 = some count) (hone : count.toRat = run.length) :
    ∃ value, total.value.div? count = some value ∧
      runAverage run = .ok { total with value } := by
  have hlength : 1 ≤ |count.toRat| := by
    rw [hone, Nat.abs_cast]
    exact_mod_cast List.length_pos_iff.2 h.ne_nil
  obtain ⟨value, hvalue⟩ := total.value.exists_div? hlength
  refine ⟨value, hvalue, ?_⟩
  simp only [runAverage, htotal, hcount, Option.bind_some, hvalue]
  rfl

/-- The mean is not below all of the lines and not above all of them. -/
theorem within (h : UniformRun unit run) {total : Quantity} {count value : Decimal}
    (htotal : total.value.toRat = exactTotal run) (hcount : count.toRat = run.length)
    (hne : count.toRat ≠ 0) (hvalue : total.value.div? count = some value)
    {smallest largest : Quantity} (hsmallest : smallest ∈ run) (hlargest : largest ∈ run)
    (hrange : ∀ q ∈ run, smallest.value.toRat ≤ q.value.toRat ∧
      q.value.toRat ≤ largest.value.toRat) :
    smallest.value.toRat ≤ value.toRat ∧ value.toRat ≤ largest.value.toRat := by
  have hquotient : total.value.toRat / count.toRat =
      (run.map fun q => q.value.toRat).sum / (run.map fun q => q.value.toRat).length := by
    rw [htotal, hcount, List.length_map, exactTotal]
  have hnonempty : (run.map fun q => q.value.toRat) ≠ [] := by simpa using h.ne_nil
  have hbetween := mean_bounds hnonempty (List.forall_mem_map.2 hrange)
  have hlimits := mean_bounds hnonempty
    (List.forall_mem_map.2 fun q hq => abs_le.1 (h.bounded q hq))
  rw [← hquotient] at hbetween hlimits
  refine Decimal.between_of_div? hne hvalue (by decide) (h.places _ hsmallest)
    (h.places _ hlargest) hbetween (n := 10 ^ 15 * 10 ^ 4) (by decide) ?_
  rw [Nat.cast_mul, Nat.cast_pow, Nat.cast_pow, Nat.cast_ofNat]
  exact mul_le_mul_of_nonneg_right (abs_le.2 hlimits) (ten_pow_pos 4).le

/-- One of the lines is the smallest, and one is the largest. -/
theorem exists_extremes (h : UniformRun unit run) :
    ∃ smallest ∈ run, ∃ largest ∈ run, ∀ q ∈ run,
      smallest.value.toRat ≤ q.value.toRat ∧ q.value.toRat ≤ largest.value.toRat := by
  have hne : run.toFinset.Nonempty := List.toFinset_nonempty_iff run |>.2 h.ne_nil
  obtain ⟨smallest, hsmallest, hlow⟩ := run.toFinset.exists_min_image (·.value.toRat) hne
  obtain ⟨largest, hlargest, hhigh⟩ := run.toFinset.exists_max_image (·.value.toRat) hne
  simp only [List.mem_toFinset] at hsmallest hlargest hlow hhigh
  exact ⟨smallest, hsmallest, largest, hlargest, fun q hq => ⟨hlow q hq, hhigh q hq⟩⟩

/-! ## What the aggregators give -/

theorem value_sum {env : Environment} {total : Quantity}
    (htotal : runTotal (numericRun env.latestFirst) = some total) :
    Aggregate.sum.value env.latestFirst env.now = .ok (.number total) := by
  rw [Aggregate.value, htotal, Option.getD_some]

theorem value_average {env : Environment} {mean : Quantity}
    (hmean : runAverage (numericRun env.latestFirst) = .ok mean) :
    Aggregate.average.value env.latestFirst env.now = .ok (.number mean) := by
  rw [Aggregate.value, hmean]
  rfl

/--
After lines that end in a run of short numbers in one unit, the total is the exact sum of the run,
and `average` succeeds in that unit with a number between the smallest and the largest line. After
the lines of the run in any other order, whatever stands before them, `sum` and `average` give the
same quantities.
-/
theorem average_within_run (h : UniformRun unit run) {env env' : Environment}
    {before before' : List Value} (hbefore : ∀ v ∈ before.getLast?, v.isNumber = false)
    (henv : env.lines = before ++ run.map .number)
    (hbefore' : ∀ v ∈ before'.getLast?, v.isNumber = false) (hother : other.Perm run)
    (henv' : env'.lines = before' ++ other.map .number) :
    ∃ total mean total' mean',
      runTotal run = some total ∧ total.value.toRat = (run.map fun q => q.value.toRat).sum ∧
      Aggregate.sum.value env.latestFirst env.now = .ok (.number total) ∧
      Aggregate.average.value env.latestFirst env.now = .ok (.number mean) ∧
      total.unit.sameAs unit = true ∧ mean.unit = total.unit ∧
      (∃ smallest ∈ run, ∃ largest ∈ run,
        (∀ q ∈ run, smallest.value.toRat ≤ q.value.toRat ∧
          q.value.toRat ≤ largest.value.toRat) ∧
        smallest.value.toRat ≤ mean.value.toRat ∧ mean.value.toRat ≤ largest.value.toRat) ∧
      Aggregate.sum.value env'.latestFirst env'.now = .ok (.number total') ∧ total'.Same total ∧
      Aggregate.average.value env'.latestFirst env'.now = .ok (.number mean') ∧
      mean'.Same mean := by
  have h' : UniformRun unit other := h.perm hother
  have hrun : numericRun env.latestFirst = run := numericRun_of_lines hbefore henv
  have hrun' : numericRun env'.latestFirst = other := numericRun_of_lines hbefore' henv'
  obtain ⟨total, htotal, hunit, hexact⟩ := h.exists_runTotal
  obtain ⟨total', htotal', hunit', hexact'⟩ := h'.exists_runTotal
  obtain ⟨count, hcount, hlength, hne, hword⟩ := h.exists_count
  have hcount' : Decimal.ofScaled? other.length 0 = some count := by rw [hother.length_eq, hcount]
  obtain ⟨value, hvalue, hmean⟩ := h.exists_runAverage htotal hcount hlength
  obtain ⟨value', hvalue', hmean'⟩ :=
    h'.exists_runAverage htotal' hcount' (by rw [hother.length_eq, hlength])
  -- both orders have one exact sum, and so they have one quotient
  have hsame : total'.value.toRat = total.value.toRat := by
    rw [hexact, hexact', exactTotal, exactTotal, (hother.map _).sum_eq]
  have hsameMean : value'.toRat = value.toRat :=
    Decimal.toRat_div?_congr hne hword hsame hvalue' hvalue
  have hsameUnit : total'.unit.sameAs total.unit = true :=
    MeasureUnit.sameAs_of_both hunit' hunit
  obtain ⟨smallest, hsmallest, largest, hlargest, hrange⟩ := h.exists_extremes
  refine ⟨total, { total with value }, total', { total' with value := value' }, htotal, hexact,
    value_sum (by rw [hrun, htotal]), value_average (by rw [hrun, hmean]), hunit, rfl,
    ⟨smallest, hsmallest, largest, hlargest, hrange, ?_⟩, value_sum (by rw [hrun', htotal']),
    ⟨Decimal.sameNumber_iff_toRat.2 hsame, hsameUnit⟩, value_average (by rw [hrun', hmean']),
    ⟨Decimal.sameNumber_iff_toRat.2 hsameMean, hsameUnit⟩⟩
  exact h.within hexact hlength hne hvalue hsmallest hlargest hrange

/-- Three percentages, of which the mean has no end. -/
def discounts : List Quantity :=
  [⟨.ofScaled 11125 3, .percent⟩, ⟨.ten, .percent⟩, ⟨.ofScaled 105000 4, .percent⟩]

theorem uniformRun_discounts : UniformRun .percent discounts where
  ne_nil := List.cons_ne_nil _ _
  length_le := by decide
  unit := by decide
  places := by
    have hscale : ∀ q ∈ discounts, q.value.scale ≤ 4 := by decide
    exact fun q hq => q.value.hasPlaces_toRat.mono (hscale q hq)
  bounded := by decide +kernel

/-- They are 31.625 % together, and their mean is 10.54… % in either order. -/
theorem average_within_run_discounts :
    UniformRun .percent discounts ∧ discounts.reverse.Perm discounts ∧
      Aggregate.sum.value (afterLines (.empty :: discounts.map .number)).latestFirst default =
        .ok (.number ⟨.ofScaled 316250 4, .percent⟩) ∧
      ∃ mean mean' : Quantity,
        Aggregate.average.value (afterLines (.empty :: discounts.map .number)).latestFirst default =
          .ok (.number mean) ∧
        Aggregate.average.value (afterLines (discounts.reverse.map .number)).latestFirst default =
          .ok (.number mean') ∧
        mean'.Same mean ∧ mean = ⟨.ofScaled 10541666666666666666666666667 27, .percent⟩ := by
  obtain ⟨total, mean, total', mean', -, -, hsum, haverage, -, -, -, -, -, haverage', hsame⟩ :=
    @average_within_run .percent discounts discounts.reverse uniformRun_discounts
      (afterLines (.empty :: discounts.map .number)) (afterLines (discounts.reverse.map .number))
      [.empty] [] (by simp [Value.isNumber]) rfl (by simp) discounts.reverse_perm rfl
  refine ⟨uniformRun_discounts, discounts.reverse_perm, ?_, mean, mean', haverage, haverage',
    hsame, ?_⟩
  · exact toOption_eq_some.1 (by decide +kernel)
  · -- the mean is computed once more
    have hmean : (Aggregate.average.value
        (afterLines (.empty :: discounts.map .number)).latestFirst default).toOption =
          some (.number ⟨.ofScaled 10541666666666666666666666667 27, .percent⟩) := by
      decide +kernel
    exact Value.number.inj (Except.ok.inj (haverage.symm.trans (toOption_eq_some.1 hmean)))

end UniformRun

end LineCalc
