import LineCalc.Operation

/-!
# What results are made of

Operations have no quantities and dates of their own. A quantity that one gives is in a unit of an
operand, in a unit that the operation looks up, or in one of the two that every registry has; a date
is one of the operands moved by some milliseconds; and what an aggregator reads from the history is
handed on as it is or made of the quantities there.

* **`MadeFrom`**: the values that can be made of given ones.
* **`BinaryOperation.madeFrom_of_apply`**, **`UnaryOperation.madeFrom_of_apply`**,
  **`Aggregate.madeFrom_of_value`**: whatever succeeds gives such a value.
-/

namespace LineCalc

/-! ## Computations that succeed -/

theorem bind_eq_ok {ε α β : Type} {x : Except ε α} {f : α → Except ε β} {b : β} :
    (x >>= f) = .ok b ↔ ∃ a, x = .ok a ∧ f a = .ok b := by
  cases x <;> simp [bind, Except.bind]

theorem map_eq_ok {ε α β : Type} {x : Except ε α} {f : α → β} {b : β} :
    x.map f = .ok b ↔ ∃ a, x = .ok a ∧ f a = b := by
  cases x <;> simp [Except.map]

theorem pure_eq_ok {ε α : Type} {a b : α} : (pure a : Except ε α) = .ok b ↔ a = b := by
  simp [pure, Except.pure]

theorem toOption_eq_some {ε α : Type} {x : Except ε α} {a : α} :
    x.toOption = some a ↔ x = .ok a := by
  cases x <;> simp [Except.toOption]

theorem Value.expectNumber_eq_ok {v : Value} {consumer : String} {q : Quantity} :
    v.expectNumber consumer = .ok q ↔ v = .number q := by
  cases v <;> simp [expectNumber]

/-! ## Values made of others -/

/-- The unit that a value is in, or is. -/
def Value.unit? : Value → Option MeasureUnit
  | .number q => some q.unit
  | .marker u => some u
  | _ => none

/-- A unit that a result can be in when it is made of the sources. -/
inductive UnitFrom (units : Registry) (sources : List Value) : MeasureUnit → Prop where
  | unitless : UnitFrom units sources .unitless
  | percent : UnitFrom units sources .percent
  | source {v : Value} {u : MeasureUnit} (hmem : v ∈ sources) (hunit : v.unit? = some u) :
      UnitFrom units sources u
  | named {name : String} {u : MeasureUnit} (hlookup : units.lookup name = some u) :
      UnitFrom units sources u

/-- A value that can be made of the sources. -/
inductive MadeFrom (units : Registry) (sources : List Value) : Value → Prop where
  | number {q : Quantity} (hunit : UnitFrom units sources q.unit) :
      MadeFrom units sources (.number q)
  /-- An instant of the sources, moved. -/
  | moved {instant shifted : Instant} {hasTime : Bool} {millis : Int}
      (hmem : .moment instant hasTime ∈ sources) (hadvance : instant.advance? millis = some shifted) :
      MadeFrom units sources (.moment shifted (hasTime || millis % millisPerDay != 0))
  /-- A value that is handed on. -/
  | kept {v : Value} (hmem : v ∈ sources) (hstorable : v.isStorable = true) :
      MadeFrom units sources v
  | clock (now : Instant) : MadeFrom units sources (.moment now true)
  | date (date : Date) : MadeFrom units sources (.ofDate date)
  | empty : MadeFrom units sources .empty

section

variable {units : Registry} {sources : List Value} {left right v : Value}

theorem MadeFrom.ofSource {q : Quantity} (source : Quantity) (hmem : .number source ∈ sources)
    (hunit : q.unit = source.unit) : MadeFrom units sources (.number q) :=
  .number (.source hmem (by simp [Value.unit?, hunit]))

/-! ## Arithmetic -/

namespace Arithmetic

theorem unit_of_relative {op : Arithmetic} {base q : Quantity} {percent : Decimal}
    (h : op.relative base percent = .ok q) : q.unit = base.unit := by
  simp only [relative, bind_eq_ok] at h
  obtain ⟨share, _, h⟩ := h
  -- only a quotient has a test of its own
  cases op with
  | add | subtract | multiply =>
    simp only [bind_eq_ok, pure_eq_ok] at h
    obtain ⟨_, _, rfl⟩ := h
    rfl
  | divide =>
    dsimp only at h
    split at h
    · cases h
    · simp only [bind_eq_ok, pure_eq_ok] at h
      obtain ⟨_, _, rfl⟩ := h
      rfl

theorem unit_of_align {op : Arithmetic} {a b : Quantity} {x y : Decimal} {u : MeasureUnit}
    (h : op.align a b = .ok (x, y, u)) : u = a.unit ∨ u = b.unit := by
  unfold align at h
  split at h
  · cases h
  split at h
  · cases h
    exact .inr rfl
  split at h <;> cases h
  exact .inl rfl

theorem unit_of_onQuantities {op : Arithmetic} {a b q : Quantity}
    (h : op.onQuantities a b = .ok q) : q.unit = a.unit ∨ q.unit = b.unit := by
  unfold onQuantities at h
  split at h
  · exact .inl (unit_of_relative h)
  · simp only [bind_eq_ok, pure_eq_ok] at h
    obtain ⟨⟨x, y, u⟩, halign, value, _, rfl⟩ := h
    exact unit_of_align halign

theorem onValues_number (op : Arithmetic) (a b : Quantity) :
    op.onValues (.number a) (.number b) = (op.onQuantities a b).map .number := by
  simp only [onValues, Value.expectNumber, bind, Except.bind, pure, Except.pure, Except.map]

theorem madeFrom_of_onValues {op : Arithmetic} (h : op.onValues left right = .ok v) :
    MadeFrom units [left, right] v := by
  simp only [onValues, bind_eq_ok, pure_eq_ok, Value.expectNumber_eq_ok] at h
  obtain ⟨a, rfl, b, rfl, q, hq, rfl⟩ := h
  rcases unit_of_onQuantities hq with hunit | hunit
  · exact .ofSource a (by simp) hunit
  · exact .ofSource b (by simp) hunit

end Arithmetic

/-! ## Dates -/

theorem madeFrom_of_shift {offset : Quantity} {backward : Bool} (hmem : left ∈ sources)
    (h : shift left offset backward = .ok v) : MadeFrom units sources v := by
  cases left with
  | moment instant hasTime =>
    simp only [shift] at h
    split at h
    · cases h
    obtain ⟨millis, _, h⟩ := bind_eq_ok.1 h
    unfold shiftBy at h
    split at h <;> cases h
    rename_i shifted hadvance
    exact .moved hmem hadvance
  | _ => cases h

theorem requireUnit_eq_ok {name : String} {u : MeasureUnit} :
    requireUnit units name = .ok u ↔ units.lookup name = some u := by
  unfold requireUnit Registry.get
  cases units.lookup name <;> simp

theorem madeFrom_of_difference {later earlier : Instant}
    (h : difference units later earlier = .ok v) : MadeFrom units sources v := by
  simp only [difference, bind_eq_ok, pure_eq_ok, requireUnit_eq_ok] at h
  obtain ⟨unit, hunit, seconds, _, rfl⟩ := h
  exact .number (.named hunit)

theorem madeFrom_of_daysUntil {today : Date} (h : daysUntil units today left = .ok v) :
    MadeFrom units sources v := by
  cases left with
  | moment instant hasTime =>
    simp only [daysUntil, bind_eq_ok, pure_eq_ok, requireUnit_eq_ok] at h
    obtain ⟨unit, hunit, days, _, rfl⟩ := h
    exact .number (.named hunit)
  | _ => cases h

theorem madeFrom_of_fromDate (h : fromDate left right = .ok v) :
    MadeFrom units [left, right] v := by
  simp only [fromDate, bind_eq_ok] at h
  obtain ⟨offset, _, h⟩ := h
  exact madeFrom_of_shift (by simp) h

theorem madeFrom_of_add (h : add left right = .ok v) : MadeFrom units [left, right] v := by
  unfold add at h
  split at h
  · exact madeFrom_of_shift (by simp) h
  · exact madeFrom_of_shift (by simp) h
  · exact Arithmetic.madeFrom_of_onValues h

theorem madeFrom_of_subtract (h : subtract units left right = .ok v) :
    MadeFrom units [left, right] v := by
  unfold subtract at h
  split at h
  · exact madeFrom_of_shift (by simp) h
  · exact madeFrom_of_difference h
  · exact Arithmetic.madeFrom_of_onValues h

theorem madeFrom_of_dayFrom {today : Date} {days : Int} (h : dayFrom today days = .ok v) :
    MadeFrom units sources v := by
  unfold dayFrom at h
  split at h <;> cases h
  exact .date _

/-! ## Conversions -/

theorem Quantity.eq_or_unit_of_convertTo {q converted : Quantity} {target : MeasureUnit}
    (h : q.convertTo target = .ok converted) : converted = q ∨ converted.unit = target := by
  unfold convertTo at h
  split at h
  · cases h
    exact .inl rfl
  split at h
  · cases h
    exact .inr rfl
  · obtain ⟨value, _, rfl⟩ := map_eq_ok.1 h
    exact .inr rfl

theorem madeFrom_of_convert (h : convert left right = .ok v) : MadeFrom units [left, right] v := by
  unfold convert at h
  split at h
  · rename_i target
    simp only [bind_eq_ok, Value.expectNumber_eq_ok] at h
    obtain ⟨q, rfl, h⟩ := h
    split at h
    · rename_i converted hconverted
      cases h
      rcases Quantity.eq_or_unit_of_convertTo hconverted with hsame | hunit
      · exact .ofSource q (by simp) (congrArg Quantity.unit hsame)
      · exact .number (.source (v := .marker target) (by simp) (by simp [Value.unit?, hunit]))
    · cases h
  · cases h

/-! ## Percent phrases and rounding -/

theorem PercentPhrase.madeFrom_of_onValues {p : PercentPhrase} (h : p.onValues left right = .ok v) :
    MadeFrom units [left, right] v := by
  simp only [PercentPhrase.onValues, bind_eq_ok, Value.expectNumber_eq_ok] at h
  obtain ⟨percent, _, h⟩ := h
  split at h
  · cases h
  simp only [bind_eq_ok, pure_eq_ok, Value.expectNumber_eq_ok] at h
  obtain ⟨amount, rfl, value, _, rfl⟩ := h
  exact .ofSource amount (by simp) rfl

theorem ComparePhrase.madeFrom_of_onValues {p : ComparePhrase} (h : p.onValues left right = .ok v) :
    MadeFrom units [left, right] v := by
  simp only [ComparePhrase.onValues, bind_eq_ok, Value.expectNumber_eq_ok] at h
  obtain ⟨x, _, y, _, h⟩ := h
  split at h
  · cases h
  simp only [bind_eq_ok, pure_eq_ok] at h
  obtain ⟨magnitude, _, value, _, rfl⟩ := h
  exact .number .percent

theorem RoundFunction.madeFrom_of_onValues {f : RoundFunction} (h : f.onValues left right = .ok v) :
    MadeFrom units [left, right] v := by
  simp only [RoundFunction.onValues, bind_eq_ok, Value.expectNumber_eq_ok] at h
  obtain ⟨q, rfl, p, _, h⟩ := h
  split at h
  · cases h
  simp only [bind_eq_ok, pure_eq_ok] at h
  obtain ⟨rounded, _, rfl⟩ := h
  exact .ofSource q (by simp) rfl

theorem madeFrom_of_negate (h : negate left = .ok v) : MadeFrom units [left] v := by
  simp only [negate, bind_eq_ok, pure_eq_ok, Value.expectNumber_eq_ok] at h
  obtain ⟨q, rfl, rfl⟩ := h
  exact .ofSource q (by simp) rfl

/-! ## Operations -/

/-- Numbers are no dates, so that all four operators are arithmetic on them. -/
theorem BinaryOperation.apply_number (op : Arithmetic) (units : Registry) (a b : Quantity) :
    (BinaryOperation.arithmetic op).apply units (.number a) (.number b) =
      (op.onQuantities a b).map .number := by
  rw [← Arithmetic.onValues_number]
  cases op <;> rfl

theorem BinaryOperation.madeFrom_of_apply {op : BinaryOperation}
    (h : op.apply units left right = .ok v) : MadeFrom units [left, right] v := by
  cases op with
  | arithmetic op =>
    cases op with
    | add => exact madeFrom_of_add h
    | subtract => exact madeFrom_of_subtract h
    | multiply | divide => exact Arithmetic.madeFrom_of_onValues h
  | convert => exact madeFrom_of_convert h
  | fromDate => exact madeFrom_of_fromDate h
  | percent phrase => exact phrase.madeFrom_of_onValues h
  | compare phrase => exact phrase.madeFrom_of_onValues h
  | round function => exact function.madeFrom_of_onValues h

theorem UnaryOperation.madeFrom_of_apply {op : UnaryOperation} {today : Date}
    (h : op.apply units today left = .ok v) : MadeFrom units [left] v := by
  cases op with
  | negate => exact madeFrom_of_negate h
  | daysUntil => exact madeFrom_of_daysUntil h

/-! ## Aggregators -/

theorem number_mem_of_mem_numericRun {history : List Value} {q : Quantity}
    (h : q ∈ numericRun history) : .number q ∈ history := by
  simp only [numericRun, List.mem_reverse, List.mem_filterMap] at h
  obtain ⟨v, hv, hq⟩ := h
  obtain rfl : v = .number q := by
    cases v <;> simp [Value.quantity?] at hq
    rw [hq]
  exact (List.takeWhile_sublist _).subset hv

theorem unit_of_foldl_addOrKeep (rest : List Quantity) (total : Quantity) :
    ∃ q ∈ total :: rest, (rest.foldl addOrKeep total).unit = q.unit := by
  induction rest generalizing total with
  | nil => exact ⟨total, by simp⟩
  | cons next rest ih =>
    obtain ⟨q, hq, hunit⟩ := ih (addOrKeep total next)
    rw [List.foldl_cons, hunit]
    rcases List.mem_cons.1 hq with rfl | hq
    · -- a sum that fails keeps the total so far
      unfold addOrKeep
      split
      · rename_i sum hsum
        rcases Arithmetic.unit_of_onQuantities hsum with h | h
        · exact ⟨total, by simp, h⟩
        · exact ⟨next, by simp, h⟩
      · exact ⟨total, by simp⟩
    · exact ⟨q, by simp [hq], rfl⟩

theorem unit_of_runTotal {run : List Quantity} {total : Quantity} (h : runTotal run = some total) :
    ∃ q ∈ run, total.unit = q.unit := by
  cases run with
  | nil => cases h
  | cons first rest =>
    cases h
    exact unit_of_foldl_addOrKeep rest first

theorem unitFrom_of_runTotal {history : List Value} {total : Quantity}
    (h : runTotal (numericRun history) = some total) : UnitFrom units history total.unit := by
  obtain ⟨q, hq, hunit⟩ := unit_of_runTotal h
  exact .source (number_mem_of_mem_numericRun hq) (by rw [hunit]; rfl)

theorem unitFrom_of_runAverage {history : List Value} {mean : Quantity}
    (h : runAverage (numericRun history) = .ok mean) : UnitFrom units history mean.unit := by
  unfold runAverage at h
  split at h
  · cases h
    exact .unitless
  · rename_i total htotal
    simp only [bind_eq_ok, pure_eq_ok] at h
    obtain ⟨value, _, rfl⟩ := h
    have hunit : UnitFrom units history total.unit := unitFrom_of_runTotal htotal
    exact hunit

/-- What an aggregator gives is made of the lines before it. -/
theorem Aggregate.madeFrom_of_value {a : Aggregate} {history : List Value} {now : Instant}
    (h : a.value history now = .ok v) : MadeFrom units history v := by
  cases a with
  | sum =>
    cases h
    refine .number ?_
    cases htotal : runTotal (numericRun history) with
    | none => exact .unitless
    | some total => exact unitFrom_of_runTotal htotal
  | average =>
    obtain ⟨mean, hmean, rfl⟩ := map_eq_ok.1 h
    exact .number (unitFrom_of_runAverage hmean)
  | prev =>
    cases history with
    | nil =>
      cases h
      exact .empty
    | cons last rest =>
      -- a failure of the line before is not handed on
      simp only [value, Except.ok.injEq] at h
      split at h
      · rename_i hstorable
        subst h
        exact .kept (by simp) hstorable
      · subst h
        exact .empty
  | now =>
    cases h
    exact .clock now
  | today =>
    cases h
    exact .date _
  | tomorrow | yesterday => exact madeFrom_of_dayFrom h

end

end LineCalc
