import LineCalc.Proofs.Vocabulary

/-!
# Registering units

Units and groups are added to a registry by calls, some of which fail. A call works on the registry
in place: a unit is entered name by name and listed at last. Every name is checked before the first
one is entered, so a call that fails has changed nothing, and what a name stands for can be told
from the calls that succeeded.

* **`Registration.Call.change`**: what a call does to a registry, step by step.
* **`Registration.run_change`**: it is the addition of a unit or of a group, or nothing at all.
* **`Registry.NamedBy`**: how the names of a registry belong to the units that were added to it.
* **`Registration.namedBy_session`**: that is so after any calls.
-/

namespace LineCalc

open Text

namespace Registration

/-! ## Calls in place -/

/-- Something done to a registry in place; what has been changed before a failure stays changed. -/
abbrev Change := EStateM UnitError Registry Unit

/-- Fails if a name belongs to a unit other than `u`. -/
def checkName (u : MeasureUnit) (name : String) : Change := do
  if (← get).taken u name then throw (.duplicateName name)

def enterName (u : MeasureUnit) (name : String) : Change :=
  modify fun r => { r with byName := r.byName.insert name u }

/-- Checks every name of a unit, enters them all, and lists the unit. -/
def register (u : MeasureUnit) : Change := do
  forM u.names (checkName u)
  forM u.names (enterName u)
  modify fun r => { r with units := r.units ++ [u] }

/-- Looks up units, which have to be of one family, and keeps them in ascending order. -/
def registerGroup (names : List String) : Change := do
  match (← get).getAll names with
  | .error e => throw e
  | .ok [] => throw .emptyGroup
  | .ok (first :: others) =>
    match others.find? (fun u => !u.isConvertibleTo first) with
    | some stranger => throw (.mixedGroup first.family stranger.family)
    | none =>
      let ascending := sorted (fun u v => u.multiplier.le v.multiplier) (first :: others)
      modify fun r => { r with groups := r.groups ++ [dropRepeats MeasureUnit.sameAs ascending] }

/-- A call that adds to a registry. -/
inductive Call where
  | add (u : MeasureUnit)
  | addGroup (names : List String)

namespace Call

def change : Call → Change
  | add u => register u
  | addGroup names => registerGroup names

/-- The registry that a call makes of another one, unless it fails. -/
def result (r : Registry) : Call → Except UnitError Registry
  | add u => r.add u
  | addGroup names => r.addGroup names

/-- The units that a call adds when it succeeds. -/
def units : Call → List MeasureUnit
  | add u => [u]
  | addGroup _ => []

end Call

theorem run_forM_checkName (u : MeasureUnit) (names : List String) (r : Registry) :
    (forM names (checkName u)).run r =
      match names.find? (r.taken u) with
      | some name => .error (.duplicateName name) r
      | none => .ok () r := by
  induction names with
  | nil => rfl
  | cons name rest ih =>
    rw [List.forM_cons, List.find?_cons, EStateM.run_bind]
    cases htaken : r.taken u name with
    | true => simp [checkName, htaken]
    | false => simpa [checkName, htaken] using ih

theorem run_forM_enterName (u : MeasureUnit) (names : List String) (r : Registry) :
    (forM names (enterName u)).run r =
      .ok () { r with byName := names.foldl (fun t name => t.insert name u) r.byName } := by
  induction names generalizing r with
  | nil => rfl
  | cons name rest ih =>
    rw [List.forM_cons, EStateM.run_bind, enterName, EStateM.run_modify]
    exact ih _

/-- A call makes of a registry what the addition makes of it, or fails and leaves it as it was. -/
theorem run_change (call : Call) (r : Registry) :
    call.change.run r =
      match call.result r with
      | .ok after => .ok () after
      | .error e => .error e r := by
  cases call with
  | add u =>
    simp only [Call.change, Call.result, register, Registry.add, EStateM.run_bind,
      run_forM_checkName, run_forM_enterName, EStateM.run_modify]
    cases u.names.find? (r.taken u) <;> rfl
  | addGroup names =>
    simp only [Call.change, Call.result, registerGroup, Registry.addGroup, EStateM.run_bind,
      EStateM.run_get]
    rcases r.getAll names with e | ⟨_ | ⟨first, others⟩⟩
    · rfl
    · rfl
    · cases hstranger : others.find? fun u => !u.isConvertibleTo first <;> simp [hstranger]

/-- The registry after a call, whatever comes of it, and the units that have been added by then. -/
def perform (s : Registry × List MeasureUnit) (call : Call) : Registry × List MeasureUnit :=
  match call.change.run s.1 with
  | .ok () after => (after, s.2 ++ call.units)
  | .error _ after => (after, s.2)

/-- The registry that calls make of an empty one, and the units that they add to it. -/
def session (calls : List Call) : Registry × List MeasureUnit :=
  calls.foldl perform (.empty, [])

end Registration

/-! ## The table of names -/

/-- Whether the unit has the name, in whatever case it is written. The empty text is no name. -/
def MeasureUnit.AnswersTo (u : MeasureUnit) (name : String) : Prop :=
  ∃ own ∈ u.names, lowercase own = lowercase name

instance (u : MeasureUnit) (name : String) : Decidable (u.AnswersTo name) :=
  inferInstanceAs (Decidable (∃ own ∈ u.names, _))

theorem MeasureUnit.answersTo_of_mem {u : MeasureUnit} {name : String} (h : name ∈ u.names) :
    u.AnswersTo name :=
  ⟨name, h, rfl⟩

/-- Units that count as the same as one unit count as the same. -/
theorem MeasureUnit.sameAs_of_common {u v w : MeasureUnit} (hu : w.sameAs u = true)
    (hv : w.sameAs v = true) : u.sameAs v = true := by
  rw [sameAs_iff] at hu hv ⊢
  exact ⟨hu.1.symm.trans hv.1, hu.2.symm.trans hv.2⟩

theorem MeasureUnit.sameAs_refl (u : MeasureUnit) : u.sameAs u = true :=
  sameAs_iff.2 ⟨rfl, rfl⟩

namespace Registry

variable {r after : Registry} {u : MeasureUnit} {added : List MeasureUnit}

/-- How the names of a registry belong to the units that were added to it, in this order. -/
structure NamedBy (r : Registry) (added : List MeasureUnit) : Prop where
  listed : r.units = .unitless :: .percent :: added
  found : ∀ name, (∃ u, r.lookup name = some u) ↔ ∃ u ∈ .percent :: added, u.AnswersTo name
  /-- A name stands for the unit that was the last one to be added with it. -/
  latest : ∀ name u, r.lookup name = some u → ∃ earlier later,
    .percent :: added = earlier ++ u :: later ∧ u.AnswersTo name ∧ ∀ v ∈ later, ¬ v.AnswersTo name
  /-- The names of a unit stand for it, or for one that counts as the same. -/
  own : ∀ u ∈ r.units, ∀ name ∈ u.names, ∃ v, r.lookup name = some v ∧ v.sameAs u = true
  apart : ∀ u ∈ r.units, ∀ v ∈ r.units, ∀ name, u.AnswersTo name → v.AnswersTo name →
    u.sameAs v = true

theorem lookup_congr {name other : String} (h : lowercase name = lowercase other) :
    r.lookup name = r.lookup other := by
  unfold lookup NameTable.find?
  rw [h]

theorem lookup_of_add (h : r.add u = .ok after) (name : String) :
    after.lookup name = if u.AnswersTo name then some u else r.lookup name := by
  unfold add at h
  split at h <;> cases h
  exact find?_index r.byName u (lowercase name)

/-- A unit is added only if all of its names are free or belong to the same unit. -/
theorem sameAs_of_add {v : MeasureUnit} {name : String} (h : r.add u = .ok after)
    (hname : u.AnswersTo name) (hlookup : r.lookup name = some v) : v.sameAs u = true := by
  obtain ⟨own, hown, hlower⟩ := hname
  unfold add at h
  split at h <;> cases h
  rename_i hfree
  have htaken := List.find?_eq_none.1 hfree own hown
  rw [taken, lookup_congr hlower, hlookup] at htaken
  simpa using htaken

/-! ### What every addition keeps -/

/--
A name is looked up among the units from the last one on, and a unit that takes over a name counts
as the same as the one that had it.
-/
structure Indexed (r : Registry) (added : List MeasureUnit) : Prop where
  listed : r.units = .unitless :: .percent :: added
  lookup : ∀ name, r.lookup name = (MeasureUnit.percent :: added).reverse.find? (·.AnswersTo name)
  own : ∀ u ∈ r.units, ∀ name, u.AnswersTo name → ∃ v, r.lookup name = some v ∧ v.sameAs u = true

theorem not_answersTo_unitless (name : String) : ¬ MeasureUnit.unitless.AnswersTo name := by
  rintro ⟨own, hown, -⟩
  exact absurd hown (by simp [MeasureUnit.names, MeasureUnit.unitless, MeasureUnit.make])

theorem lookup_empty (name : String) :
    empty.lookup name = if MeasureUnit.percent.AnswersTo name then some .percent else none :=
  find?_index {} .percent (lowercase name)

theorem indexed_empty : empty.Indexed [] where
  listed := rfl
  lookup := by
    intro name
    rw [lookup_empty, List.reverse_singleton, List.find?_singleton]
    simp
  own := by
    intro u hu name hname
    have hcases : u = .unitless ∨ u = .percent := by simpa [empty] using hu
    rcases hcases with rfl | rfl
    · exact absurd hname (not_answersTo_unitless name)
    · exact ⟨.percent, by rw [lookup_empty, if_pos hname], MeasureUnit.sameAs_refl _⟩

theorem Indexed.add (h : r.Indexed added) (hadd : r.add u = .ok after) :
    after.Indexed (added ++ [u]) where
  listed := by
    rw [units_of_add hadd, h.listed]
    rfl
  lookup := by
    intro name
    rw [lookup_of_add hadd, h.lookup, ← List.cons_append, List.reverse_concat, List.find?_cons]
    by_cases hname : u.AnswersTo name <;> simp [hname]
  own := by
    intro w hw name hname
    rw [lookup_of_add hadd]
    rw [units_of_add hadd, List.mem_append, List.mem_singleton] at hw
    by_cases hnew : u.AnswersTo name
    · -- the name stands for the new unit, which is added only if that counts as the same
      rw [if_pos hnew]
      refine ⟨u, rfl, ?_⟩
      rcases hw with hold | rfl
      · obtain ⟨v, hlookup, hsame⟩ := h.own w hold name hname
        exact MeasureUnit.sameAs_of_common (sameAs_of_add hadd hnew hlookup) hsame
      · exact w.sameAs_refl
    · rw [if_neg hnew]
      rcases hw with hold | rfl
      · exact h.own w hold name hname
      · exact absurd hname hnew

theorem Indexed.addGroup {names : List String} (h : r.Indexed added)
    (hadd : r.addGroup names = .ok after) : after.Indexed added := by
  obtain ⟨groups, rfl⟩ := eq_of_addGroup hadd
  exact ⟨h.listed, h.lookup, h.own⟩

theorem Indexed.namedBy (h : r.Indexed added) : r.NamedBy added where
  listed := h.listed
  found := by
    intro name
    rw [← Option.isSome_iff_exists, h.lookup, List.find?_isSome]
    simp only [List.mem_reverse, decide_eq_true_eq]
  latest := by
    intro name u hlookup
    rw [h.lookup, List.find?_eq_some_iff_append] at hlookup
    obtain ⟨hname, later, earlier, hsplit, hlater⟩ := hlookup
    refine ⟨earlier.reverse, later.reverse, ?_, by simpa using hname, ?_⟩
    · rw [← List.reverse_reverse (MeasureUnit.percent :: added), hsplit]
      simp
    · intro v hv
      simpa using hlater v (List.mem_reverse.1 hv)
  own u hu name hname := h.own u hu name (MeasureUnit.answersTo_of_mem hname)
  apart := by
    intro u hu v hv name huname hvname
    obtain ⟨w, hlookup, hwu⟩ := h.own u hu name huname
    obtain ⟨w', hlookup', hwv⟩ := h.own v hv name hvname
    obtain rfl : w = w' := Option.some.inj (hlookup.symm.trans hlookup')
    exact MeasureUnit.sameAs_of_common hwu hwv

end Registry

/-! ## Any calls -/

namespace Registration

open Registry (Indexed)

theorem indexed_result {r after : Registry} {added : List MeasureUnit} {call : Call}
    (h : r.Indexed added) (hresult : call.result r = .ok after) :
    after.Indexed (added ++ call.units) := by
  cases call with
  | add u => exact h.add hresult
  | addGroup names =>
    rw [Call.units, List.append_nil]
    exact h.addGroup hresult

theorem indexed_perform {s : Registry × List MeasureUnit} (h : s.1.Indexed s.2) (call : Call) :
    (perform s call).1.Indexed (perform s call).2 := by
  rw [perform, run_change]
  cases hresult : call.result s.1 with
  | ok after => exact indexed_result h hresult
  | error e => exact h

theorem indexed_session (calls : List Call) : (session calls).1.Indexed (session calls).2 := by
  have hstart : (Registry.empty, ([] : List MeasureUnit)).1.Indexed [] := Registry.indexed_empty
  exact List.foldlRecOn (motive := fun s => s.1.Indexed s.2) calls perform hstart
    fun _ h call _ => indexed_perform h call

/--
Whatever calls have been made, a call that fails leaves the registry as it is, a name stands for the
unit that was the last to be added with it, and units that are not the same share no name.
-/
theorem namedBy_session (calls : List Call) :
    (∀ (call : Call) e after, call.change.run (session calls).1 = .error e after →
      after = (session calls).1) ∧
    (session calls).1.NamedBy (session calls).2 := by
  refine ⟨fun call e after hrun => ?_, (indexed_session calls).namedBy⟩
  rw [run_change] at hrun
  split at hrun <;> cases hrun
  rfl

end Registration

end LineCalc
