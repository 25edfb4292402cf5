import LineCalc.Proofs.Names
import LineCalc.Proofs.Registration
import LineCalc.Proofs.Selection

/-!
# One size for each unit

A unit may be added again, with other names and another size: only names that belong to a unit of
another family or name are refused. The names that the new unit does not have still stand for the
old one then, and so do the groups that hold it. As long as that does not happen, all that is known
as one unit has one size, and it makes no difference by which name a unit is found.

* **`Registry.Known`**: the units that can be met, by a name or in a group.
* **`Registry.OneSize`**: what is known as one unit is converted alike.
* **`Registry.oneSize_add_iff`**: a unit that is added keeps this exactly when it has the size of
  what stays known as the same unit.
* **`Registration.oneSize_session_iff`**: so it is after any calls.
-/

namespace LineCalc

/-! ## What decides about conversions -/

/-- What a unit is, however it is shown and whatever else it is called. -/
def MeasureUnit.definition (u : MeasureUnit) : String × String × Decimal :=
  (u.family, u.name, u.multiplier)

theorem MeasureUnit.definition_eq_iff {u v : MeasureUnit} :
    u.definition = v.definition ↔ u.sameAs v = true ∧ u.multiplier = v.multiplier := by
  simp only [definition, Prod.mk.injEq, sameAs_iff, and_assoc]

namespace Quantity

/-- The number of a quantity and the definition of its unit. -/
def measured (q : Quantity) : Decimal × String × String × Decimal :=
  (q.value, q.unit.definition)

variable {q q' result : Quantity} {u v : MeasureUnit}

/-- What a conversion gives depends on definitions only. -/
theorem measured_convertTo_congr (hq : q.measured = q'.measured) (hu : u.definition = v.definition) :
    (q.convertTo u).map measured = (q'.convertTo v).map measured := by
  obtain ⟨hvalue, hunit⟩ := Prod.mk.inj hq
  obtain ⟨hfamily, hname, hmultiplier⟩ : q.unit.family = q'.unit.family ∧
      q.unit.name = q'.unit.name ∧ q.unit.multiplier = q'.unit.multiplier := by
    simpa [MeasureUnit.definition] using hunit
  obtain ⟨hfamily', hname', hmultiplier'⟩ : u.family = v.family ∧ u.name = v.name ∧
      u.multiplier = v.multiplier := by
    simpa [MeasureUnit.definition] using hu
  have hsame : q.unit.sameAs u = q'.unit.sameAs v := by
    simp only [MeasureUnit.sameAs, hfamily, hname, hfamily', hname']
  have hplain : q.unit.isUnitless = q'.unit.isUnitless := by
    simp only [MeasureUnit.isUnitless, hfamily]
  have hdecimal : convertDecimal q.value q.unit u = convertDecimal q'.value q'.unit v := by
    simp only [convertDecimal, MeasureUnit.isConvertibleTo, hfamily, hfamily', hmultiplier,
      hmultiplier', hname, hname', hvalue]
    rfl
  unfold convertTo
  rw [hsame, hplain, hdecimal]
  split
  · exact congrArg Except.ok hq
  split
  · exact congrArg Except.ok (Prod.ext hvalue hu)
  · cases convertDecimal q'.value q'.unit v with
    | error e => rfl
    | ok d => exact congrArg Except.ok (Prod.ext rfl hu)

end Quantity

/-! ## One size -/

namespace Registry

open Quantity (measured)

/-- A unit that can be met: one of the names stands for it, or it is in a group. -/
def Known (r : Registry) (u : MeasureUnit) : Prop :=
  (∃ name, r.lookup name = some u) ∨ ∃ group ∈ r.groups, u ∈ group

/--
Units that count as the same are of one size, wherever they are met, and they are converted alike:
from them, to them, and by the choice of a unit for display, which gives what a conversion gives.
-/
structure OneSize (r : Registry) : Prop where
  multiplier : ∀ u v, r.Known u → r.Known v → u.sameAs v = true → u.multiplier = v.multiplier
  source : ∀ u v, r.Known u → r.Known v → u.sameAs v = true → ∀ value target,
    ((⟨value, u⟩ : Quantity).convertTo target).map measured =
      ((⟨value, v⟩ : Quantity).convertTo target).map measured
  target : ∀ u v, r.Known u → r.Known v → u.sameAs v = true → ∀ q : Quantity,
    (q.convertTo u).map measured = (q.convertTo v).map measured
  select : ∀ u v, r.Known u → r.Known v → u.sameAs v = true → ∀ value precision,
    (r.select ⟨value, u⟩ precision).map measured = (r.select ⟨value, v⟩ precision).map measured
  selected : ∀ q precision result, r.select q precision = .ok result →
    ∀ u, r.Known u → u.sameAs result.unit = true →
      (q.convertTo u).map measured = .ok result.measured

/-- What stays known when a unit is added: what has a name that it does not have, or is in a group. -/
def StaysKnown (r : Registry) (u v : MeasureUnit) : Prop :=
  (∃ name, r.lookup name = some v ∧ ¬ u.AnswersTo name) ∨ ∃ group ∈ r.groups, v ∈ group

/-- A unit that can be met once it is added is of the size of what stays known as the same unit. -/
def KeepsSizes (r : Registry) (u : MeasureUnit) : Prop :=
  u.names ≠ [] → ∀ v, r.StaysKnown u v → v.sameAs u = true → v.multiplier = u.multiplier

variable {r after : Registry} {u v : MeasureUnit}

theorem groupFor_congr (h : u.sameAs v = true) : r.groupFor u = r.groupFor v := by
  obtain ⟨hfamily, hname⟩ := MeasureUnit.sameAs_iff.1 h
  simp only [groupFor, MeasureUnit.sameAs, hfamily, hname]

theorem measured_select_congr (h : u.definition = v.definition) (value : Decimal)
    (precision : Nat) :
    (r.select ⟨value, u⟩ precision).map measured =
      (r.select ⟨value, v⟩ precision).map measured := by
  have hmeasured : (⟨value, u⟩ : Quantity).measured = (⟨value, v⟩ : Quantity).measured :=
    Prod.ext rfl h
  unfold select
  rw [groupFor_congr (MeasureUnit.definition_eq_iff.1 h).1]
  cases r.groupFor v with
  | none => exact congrArg Except.ok hmeasured
  | some group =>
    refine Quantity.selectFrom_congr (fun a b hsame => ?_) fun w _ =>
      Quantity.measured_convertTo_congr hmeasured rfl
    rw [(Prod.mk.inj hsame).1]

/-- That all that is known as one unit has one size decides about all conversions. -/
theorem oneSize_of_multiplier
    (h : ∀ u v, r.Known u → r.Known v → u.sameAs v = true → u.multiplier = v.multiplier) :
    r.OneSize := by
  have hdefinition : ∀ u v, r.Known u → r.Known v → u.sameAs v = true →
      u.definition = v.definition :=
    fun u v hu hv hsame => MeasureUnit.definition_eq_iff.2 ⟨hsame, h u v hu hv hsame⟩
  refine ⟨h, ?_, ?_, ?_, ?_⟩
  · intro u v hu hv hsame value target
    exact Quantity.measured_convertTo_congr (Prod.ext rfl (hdefinition u v hu hv hsame)) rfl
  · intro u v hu hv hsame q
    exact Quantity.measured_convertTo_congr rfl (hdefinition u v hu hv hsame)
  · intro u v hu hv hsame value precision
    exact measured_select_congr (hdefinition u v hu hv hsame) value precision
  · intro q precision result hselect u hu hsame
    have hkept : u.sameAs q.unit = true → (q.convertTo u).map measured = .ok q.measured := by
      intro hunit
      rw [Quantity.convertTo, if_pos (MeasureUnit.sameAs_of_common hunit u.sameAs_refl)]
      rfl
    unfold Registry.select at hselect
    cases hgroup : r.groupFor q.unit with
    | none =>
      rw [hgroup] at hselect
      cases hselect
      exact hkept hsame
    | some group =>
      rw [hgroup] at hselect
      obtain ⟨v, hv, hconvert⟩ := Quantity.convertTo_of_selectFrom hselect
      rcases Quantity.eq_or_unit_of_convertTo hconvert with rfl | rfl
      · exact hkept hsame
      · -- the unit of the group counts as the same, so it is of the same size
        have hknown : r.Known result.unit := .inr ⟨group, List.mem_of_find?_eq_some hgroup, hv⟩
        rw [Quantity.measured_convertTo_congr rfl (hdefinition _ _ hu hknown hsame), hconvert]
        rfl

/-! ### What every addition keeps -/

theorem StaysKnown.known (h : r.StaysKnown u v) : r.Known v := by
  rcases h with ⟨name, hlookup, -⟩ | hgroup
  · exact .inl ⟨name, hlookup⟩
  · exact .inr hgroup

theorem groups_of_add (hadd : r.add u = .ok after) : after.groups = r.groups := by
  unfold add at hadd
  split at hadd <;> cases hadd
  rfl

theorem answersTo_of_names_ne_nil (h : u.names ≠ []) : ∃ name, u.AnswersTo name := by
  obtain ⟨name, hname⟩ := List.exists_mem_of_ne_nil _ h
  exact ⟨name, MeasureUnit.answersTo_of_mem hname⟩

theorem known_of_add (hadd : r.add u = .ok after) :
    after.Known v ↔ (u.names ≠ [] ∧ v = u) ∨ r.StaysKnown u v := by
  simp only [Known, StaysKnown, groups_of_add hadd, lookup_of_add hadd]
  constructor
  · rintro (⟨name, hlookup⟩ | hgroup)
    · split at hlookup
      · rename_i hname
        obtain ⟨own, hown, -⟩ := hname
        exact .inl ⟨List.ne_nil_of_mem hown, (Option.some.inj hlookup).symm⟩
      · rename_i hname
        exact .inr (.inl ⟨name, hlookup, hname⟩)
    · exact .inr (.inr hgroup)
  · rintro (⟨hnames, rfl⟩ | ⟨name, hlookup, hname⟩ | hgroup)
    · obtain ⟨name, hname⟩ := answersTo_of_names_ne_nil hnames
      exact .inl ⟨name, if_pos hname⟩
    · exact .inl ⟨name, (if_neg hname).trans hlookup⟩
    · exact .inr hgroup

theorem oneSize_add_iff (h : r.OneSize) (hadd : r.add u = .ok after) :
    after.OneSize ↔ r.KeepsSizes u := by
  constructor
  · intro hafter hnames v hv hsame
    exact hafter.multiplier v u ((known_of_add hadd).2 (.inr hv))
      ((known_of_add hadd).2 (.inl ⟨hnames, rfl⟩)) hsame
  · intro hkeeps
    refine oneSize_of_multiplier fun v w hv hw hsame => ?_
    rcases (known_of_add hadd).1 hv with ⟨hnames, rfl⟩ | hv <;>
      rcases (known_of_add hadd).1 hw with ⟨hnames', rfl⟩ | hw
    · rfl
    · exact (hkeeps hnames w hw (MeasureUnit.sameAs_of_common hsame v.sameAs_refl)).symm
    · exact hkeeps hnames' v hv hsame
    · exact h.multiplier v w hv.known hw.known hsame

theorem lookup_of_getAll {names : List String} {found : List MeasureUnit}
    (h : r.getAll names = .ok found) : ∀ u ∈ found, ∃ name, r.lookup name = some u := by
  induction names generalizing found with
  | nil =>
    cases h
    simp
  | cons name names ih =>
    unfold getAll at h
    split at h
    · cases h
    rename_i first hfirst
    obtain ⟨others, hothers, rfl⟩ := map_eq_ok.1 h
    refine List.forall_mem_cons.2 ⟨⟨name, ?_⟩, ih hothers⟩
    unfold get at hfirst
    split at hfirst <;> cases hfirst
    assumption

/-- The units of a new group are looked up, so a group makes no unit known that was not. -/
theorem known_of_addGroup {names : List String} (hadd : r.addGroup names = .ok after)
    (h : after.Known u) : r.Known u := by
  unfold addGroup at hadd
  split at hadd
  · cases hadd
  · cases hadd
  rename_i first others hfound
  split at hadd <;> cases hadd
  rcases h with hlookup | ⟨group, hgroup, hu⟩
  · exact .inl hlookup
  rcases List.mem_append.1 hgroup with hold | hnew
  · exact .inr ⟨group, hold, hu⟩
  · rw [List.mem_singleton.1 hnew] at hu
    exact .inl (lookup_of_getAll hfound u
      ((sorted_perm _ _).mem_iff.1 ((dropRepeats_sublist _ _).subset hu)))

theorem OneSize.addGroup {names : List String} (h : r.OneSize)
    (hadd : r.addGroup names = .ok after) : after.OneSize :=
  oneSize_of_multiplier fun u v hu hv =>
    h.multiplier u v (known_of_addGroup hadd hu) (known_of_addGroup hadd hv)

theorem oneSize_empty : empty.OneSize := by
  have hpercent : ∀ u, empty.Known u → u = .percent := by
    rintro u (⟨name, hlookup⟩ | ⟨group, hgroup, -⟩)
    · rw [lookup_empty] at hlookup
      split at hlookup <;> cases hlookup
      rfl
    · cases hgroup
  refine oneSize_of_multiplier fun u v hu hv _ => ?_
  rw [hpercent u hu, hpercent v hv]

end Registry

/-! ## Any calls -/

namespace Registration

theorem session_snoc (calls : List Call) (call : Call) :
    session (calls ++ [call]) = perform (session calls) call := by
  simp [session]

/-- What a call does to sizes: only a unit that is added can change them. -/
theorem oneSize_perform_iff {s : Registry × List MeasureUnit} (h : s.1.OneSize) (call : Call) :
    (perform s call).1.OneSize ↔
      ∀ u, call = .add u → ∀ after, s.1.add u = .ok after → s.1.KeepsSizes u := by
  rw [perform, run_change]
  cases call with
  | add u =>
    cases hadd : s.1.add u with
    | error e => simp [Call.result, hadd, h]
    | ok after => simp [Call.result, hadd, Registry.oneSize_add_iff h hadd]
  | addGroup names =>
    cases hadd : s.1.addGroup names with
    | error e => simp [Call.result, hadd, h]
    | ok after => simp [Call.result, hadd, h.addGroup hadd]

/--
All along a session what is known as one unit has one size, and is converted alike, exactly when each
unit that is added has the size of whatever stays known as the same unit.
-/
theorem oneSize_session_iff (calls : List Call) :
    (∀ earlier later, calls = earlier ++ later → (session earlier).1.OneSize) ↔
      ∀ earlier u later, calls = earlier ++ .add u :: later →
        ∀ after, (session earlier).1.add u = .ok after → (session earlier).1.KeepsSizes u := by
  constructor
  · intro h earlier u later hsplit after hadd
    have hbefore := h earlier _ hsplit
    have hafter := h (earlier ++ [.add u]) later (by simp [hsplit])
    rw [session_snoc, oneSize_perform_iff hbefore] at hafter
    exact hafter u rfl after hadd
  · intro h earlier
    -- induction on the calls that have been made: the last one keeps what holds before it
    induction earlier using List.reverseRecOn with
    | nil => exact fun _ _ => Registry.oneSize_empty
    | append_singleton earlier call ih =>
      intro later hsplit
      rw [List.append_assoc, List.singleton_append] at hsplit
      rw [session_snoc, oneSize_perform_iff (ih _ hsplit)]
      rintro u rfl after hadd
      exact h earlier u later hsplit after hadd

/-- A foo of five millimetres, which is also a bar, and then a foo of ten: a bar stays five long. -/
example :
    let mm := MeasureUnit.make "length" "mm" .one [] []
    let foo := MeasureUnit.make "length" "foo" (.ofInt 5) [] [["bar"]]
    let longer := MeasureUnit.make "length" "foo" .ten [] []
    let r := (session [.add mm, .add foo, .add longer]).1
    r.lookup "foo" = some longer ∧ r.lookup "bar" = some foo ∧
      (⟨.one, longer⟩ : Quantity).convertTo mm = .ok ⟨.ten, mm⟩ ∧
      (⟨.one, foo⟩ : Quantity).convertTo mm = .ok ⟨.ofInt 5, mm⟩ := by
  decide +kernel

end Registration

end LineCalc
