import LineCalc.Config.Standard
import LineCalc.Proofs.Results

/-!
# Vocabularies that are put together

A registry keeps its units and the table of their names apart, so not every pair of the two belongs
together. In what is put together entry by entry, every name stands for a unit that was registered.

* **`Registry.Consistent`**: the names of a registry stand for units of the registry.
* **`Draft.Built`**: the drafts that are put together entry by entry.
* **`Draft.Built.consistent`**: their registries are consistent.
* **`Standard.registered_units`**: the groups and the names of the standard units.
* **`Standard.built_draft`**: the standard vocabulary is such a draft.
-/

namespace LineCalc

/-! ## Registries -/

/-- Each name stands for a registered unit that has it, and the units that are always there are. -/
structure Registry.Consistent (r : Registry) : Prop where
  unitless_mem : .unitless ∈ r.units
  percent_mem : .percent ∈ r.units
  named : ∀ key u, r.byName.entries.find? key = some u →
    u ∈ r.units ∧ ∃ name ∈ u.names, Text.lowercase name = key

namespace Registry

theorem Consistent.lookup_mem {r : Registry} (h : r.Consistent) (name : String) (u : MeasureUnit)
    (hlookup : r.lookup name = some u) : u ∈ r.units :=
  (h.named (Text.lowercase name) u hlookup).1

/-- A name stands for the unit that was entered last, if that has it, or as it stood before. -/
theorem find?_index (table : NameTable MeasureUnit) (u : MeasureUnit) (key : String) :
    (index table u).entries.find? key =
      if ∃ name ∈ u.names, Text.lowercase name = key then some u else table.entries.find? key := by
  unfold index
  -- induction on the names that are entered, one after the other
  generalize u.names = names
  induction names generalizing table with
  | nil => simp
  | cons first others ih =>
    rw [List.foldl_cons, ih, NameTable.insert, Assoc.find?_put]
    by_cases hothers : ∃ name ∈ others, Text.lowercase name = key <;> simp [hothers]

theorem named_of_find?_index {table : NameTable MeasureUnit} {u v : MeasureUnit} {key : String}
    (h : (index table u).entries.find? key = some v) :
    (v = u ∧ ∃ name ∈ u.names, Text.lowercase name = key) ∨ table.entries.find? key = some v := by
  rw [find?_index] at h
  split at h
  · rename_i hname
    exact .inl ⟨(Option.some.inj h).symm, hname⟩
  · exact .inr h

theorem consistent_empty : empty.Consistent where
  unitless_mem := by simp [empty]
  percent_mem := by simp [empty]
  named := by
    intro key u h
    rcases named_of_find?_index h with ⟨rfl, hname⟩ | h
    · exact ⟨by simp [empty], hname⟩
    · cases h

theorem Consistent.add {r after : Registry} {u : MeasureUnit} (h : r.Consistent)
    (hadd : r.add u = .ok after) : after.Consistent := by
  unfold Registry.add at hadd
  split at hadd
  · cases hadd
  cases hadd
  refine ⟨List.mem_append_left _ h.unitless_mem, List.mem_append_left _ h.percent_mem,
    fun key v hfind => ?_⟩
  rcases named_of_find?_index hfind with ⟨rfl, hname⟩ | hfind
  · exact ⟨List.mem_append_right _ (List.mem_singleton_self v), hname⟩
  · obtain ⟨hmem, hname⟩ := h.named key v hfind
    exact ⟨List.mem_append_left _ hmem, hname⟩

theorem units_of_add {r after : Registry} {u : MeasureUnit} (hadd : r.add u = .ok after) :
    after.units = r.units ++ [u] := by
  unfold add at hadd
  split at hadd <;> cases hadd
  rfl

theorem eq_of_addGroup {r after : Registry} {names : List String}
    (hadd : r.addGroup names = .ok after) : ∃ groups, after = { r with groups } := by
  unfold Registry.addGroup at hadd
  split at hadd
  · cases hadd
  · cases hadd
  · split at hadd <;> cases hadd
    exact ⟨_, rfl⟩

theorem Consistent.addGroup {r after : Registry} {names : List String} (h : r.Consistent)
    (hadd : r.addGroup names = .ok after) : after.Consistent := by
  obtain ⟨groups, rfl⟩ := eq_of_addGroup hadd
  exact ⟨h.unitless_mem, h.percent_mem, h.named⟩

end Registry

/-! ## Drafts -/

namespace Draft

/-- The drafts that are put together entry by entry. -/
inductive Built : Draft → Prop where
  | start : Built {}
  | unit {d after : Draft} {u : MeasureUnit} (h : Built d) (hadd : d.addUnit u = .ok after) :
      Built after
  | group {d after : Draft} {names : List String} (h : Built d)
      (hadd : d.addGroup names = .ok after) : Built after
  | operator {d : Draft} (h : Built d) (op : Operator) : Built (d.addOperator op)
  | function {d : Draft} (h : Built d) (f : Function) : Built (d.addFunction f)
  | aggregator {d : Draft} (h : Built d) (a : Aggregator) : Built (d.addAggregator a)
  | decimalSeparator {d : Draft} (h : Built d) (separator : Char) :
      Built (d.withDecimalSeparator separator)
  | groupingSeparator {d : Draft} (h : Built d) (separator : Option Char) :
      Built (d.withGroupingSeparator separator)

theorem units_addOperator (d : Draft) (op : Operator) : (d.addOperator op).units = d.units := by
  cases op <;> rfl

/-- In a draft that is put together, every name stands for a unit that was registered. -/
theorem Built.consistent {d : Draft} (h : d.Built) : d.units.Consistent := by
  induction h with
  | start => exact Registry.consistent_empty
  | unit _ hadd ih =>
    obtain ⟨units, hunits, rfl⟩ := map_eq_ok.1 hadd
    exact ih.add hunits
  | group _ hadd ih =>
    obtain ⟨units, hunits, rfl⟩ := map_eq_ok.1 hadd
    exact ih.addGroup hunits
  | operator _ op ih =>
    rw [units_addOperator]
    exact ih
  | function _ _ ih | aggregator _ _ ih | decimalSeparator _ _ ih | groupingSeparator _ _ ih =>
    exact ih

end Draft

/-! ## The standard vocabulary -/

namespace Standard

open Draft (Built)

theorem built_addUnits {r after : Registry} {added : List MeasureUnit} (h : Built { units := r })
    (hadd : addUnits r added = .ok after) : Built { units := after } := by
  induction added generalizing r with
  | nil =>
    obtain rfl : r = after := pure_eq_ok.1 hadd
    exact h
  | cons u rest ih =>
    simp only [addUnits, List.foldlM_cons, bind_eq_ok] at hadd
    obtain ⟨next, hnext, hadd⟩ := hadd
    exact ih (h.unit (map_eq_ok.2 ⟨next, hnext, rfl⟩)) hadd

theorem built_addGroup {r after : Registry} {names : List String} (h : Built { units := r })
    (hadd : r.addGroup names = .ok after) : Built { units := after } :=
  h.group (map_eq_ok.2 ⟨after, hadd, rfl⟩)

theorem built_of_registerUnits {r : Registry} (h : registerUnits = .ok r) :
    Built { units := r } := by
  simp only [registerUnits, bind_eq_ok] at h
  obtain ⟨_, hlengths, _, hmetric, _, hweights, _, hmass, _, hvolumes, _, hvolume, _,
    hdurations, _, htime, hcurrencies⟩ := h
  exact built_addUnits (built_addGroup (built_addUnits (built_addGroup (built_addUnits
    (built_addGroup (built_addUnits (built_addGroup (built_addUnits .start hlengths) hmetric)
      hweights) hmass) hvolumes) hvolume) hdurations) htime) hcurrencies

theorem built_units : Built { units } := by
  -- whether the units can be registered is not asked: without them the draft is built as well
  unfold units
  generalize hresult : registerUnits = result
  cases result with
  | ok r => exact built_of_registerUnits hresult
  | error _ => exact .start

theorem units_of_addUnits {r after : Registry} {added : List MeasureUnit}
    (hadd : addUnits r added = .ok after) : after.units = r.units ++ added := by
  induction added generalizing r with
  | nil =>
    obtain rfl : r = after := pure_eq_ok.1 hadd
    exact (List.append_nil _).symm
  | cons u rest ih =>
    simp only [addUnits, List.foldlM_cons, bind_eq_ok] at hadd
    obtain ⟨next, hnext, hadd⟩ := hadd
    rw [ih hadd, Registry.units_of_add hnext, List.append_assoc, List.singleton_append]

theorem units_of_addGroup {r after : Registry} {names : List String}
    (hadd : r.addGroup names = .ok after) : after.units = r.units := by
  obtain ⟨groups, rfl⟩ := Registry.eq_of_addGroup hadd
  rfl

/-- The units of the standard vocabulary, in the order in which they are registered. -/
def listedUnits : List MeasureUnit :=
  .unitless :: .percent :: (lengths ++ weights ++ volumes ++ durations ++ currencies)

theorem units_of_registerUnits {r : Registry} (h : registerUnits = .ok r) :
    r.units = listedUnits := by
  simp only [registerUnits, bind_eq_ok] at h
  obtain ⟨_, hlengths, _, hmetric, _, hweights, _, hmass, _, hvolumes, _, hvolume, _,
    hdurations, _, htime, hcurrencies⟩ := h
  rw [units_of_addUnits hcurrencies, units_of_addGroup htime, units_of_addUnits hdurations,
    units_of_addGroup hvolume, units_of_addUnits hvolumes, units_of_addGroup hmass,
    units_of_addUnits hweights, units_of_addGroup hmetric, units_of_addUnits hlengths]
  rfl

theorem mem_listedUnits {u : MeasureUnit} (h : u ∈ units.units) : u ∈ listedUnits := by
  unfold units at h
  generalize hresult : registerUnits = result at h
  cases result with
  | ok r => exact units_of_registerUnits hresult ▸ h
  | error _ => exact List.mem_append_left _ h

theorem units_draft : draft.units = units := by
  have hparts := part_draft Draft.units Draft.units_addOperator (fun _ _ => rfl) fun _ _ => rfl
  rw [hparts]

theorem units_standard : Config.standard.units = units :=
  units_draft

/-- The groups of units by which lengths, weights, volumes and durations are shown. -/
def displayGroups : List (List MeasureUnit) :=
  [lengths.take 4, weights.take 4, volumes.take 4, (durations.drop 1).take 5]

/-- The registration succeeds: the groups are there, and every name stands for its unit. -/
theorem registered_units : units.groups = displayGroups ∧
    ∀ u ∈ listedUnits, ∀ name ∈ u.names, units.lookup name = some u := by
  decide +kernel

theorem consistent_of_built {r : Registry} (h : Built { units := r }) : r.Consistent :=
  h.consistent

/-- The registration fails for none of the units. -/
theorem mem_units_of_listed {u : MeasureUnit} (h : u ∈ listedUnits) : u ∈ units.units := by
  have hnamed : ∀ u ∈ listedUnits, u = .unitless ∨ u.name ∈ u.names := by decide +kernel
  have hconsistent := consistent_of_built built_units
  rcases hnamed u h with rfl | hname
  · exact hconsistent.unitless_mem
  · exact hconsistent.lookup_mem u.name u (registered_units.2 u h u.name hname)

theorem built_foldl {α : Type} {add : Draft → α → Draft} (hadd : ∀ d a, Built d → Built (add d a))
    {d : Draft} (h : Built d) (entries : List α) : Built (entries.foldl add d) := by
  induction entries generalizing d with
  | nil => exact h
  | cons a rest ih => exact ih (hadd d a h)

theorem built_draft : Built draft := by
  unfold draft
  refine built_foldl (fun _ a h => h.aggregator a) ?_ aggregators
  refine built_foldl (fun _ f h => h.function f) ?_ functions
  exact built_foldl (fun _ op h => h.operator op) built_units operators

end Standard

end LineCalc
