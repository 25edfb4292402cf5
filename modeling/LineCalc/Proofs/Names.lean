import LineCalc.Lexicon
import LineCalc.Proofs.Repeats
import LineCalc.Proofs.Vocabulary

/-!
# The names of a lexicon

A lexicon holds the names of the tables in lowercase, in an order of its own and once each. Which
names it holds can be read off the tables, and a name that has characters keeps some in lowercase.
-/

namespace LineCalc

open Text

theorem mem_sortNames {key : String} {names : List String} : key ∈ sortNames names ↔ key ∈ names :=
  (sorted_perm _ _).mem_iff

theorem Assoc.mem_keys {α : Type} {entries : Assoc α} {key : String} :
    key ∈ entries.keys ↔ ∃ a, entries.find? key = some a := by
  induction entries with
  | nil => simp [Assoc.keys, Assoc.find?]
  | cons entry rest ih =>
    obtain ⟨other, a⟩ := entry
    unfold Assoc.find?
    split
    · rename_i heq
      simp [Assoc.keys, heq]
    · rename_i hne
      rw [← ih]
      simp [Assoc.keys, Ne.symm hne]

theorem Registry.lookup_eq (r : Registry) (name : String) :
    r.lookup name = r.byName.entries.find? (lowercase name) := rfl

namespace Lexicon

theorem mem_arrange {name : List Char} {names : List String} :
    name ∈ arrange names ↔ ∃ key ∈ names, lower key.toList = name := by
  rw [arrange, mem_dropRepeats, (sorted_perm _ _).mem_iff, List.mem_map]

theorem mem_units_ofConfig {config : Config} {name : List Char} :
    name ∈ (ofConfig config).units ↔
      ∃ key u, config.units.byName.entries.find? key = some u ∧ lower key.toList = name := by
  simp only [ofConfig, mem_arrange, Registry.names, mem_sortNames, NameTable.names, Assoc.mem_keys]
  constructor
  · rintro ⟨key, ⟨u, hu⟩, heq⟩
    exact ⟨key, u, hu, heq⟩
  · rintro ⟨key, u, hu, heq⟩
    exact ⟨key, ⟨u, hu⟩, heq⟩

/-! ## Names without characters -/

theorem lower_eq_nil {cs : List Char} (h : lower cs = []) : cs = [] := by
  cases cs with
  | nil => rfl
  | cons c rest =>
    have hchar : lowerChar c ≠ [] := by
      unfold lowerChar
      split <;> simp
    rw [lower, lowerAfter, List.append_eq_nil_iff] at h
    have hhead := h.1
    split at hhead
    · split at hhead <;> cases hhead
    · exact absurd hhead hchar

theorem nil_not_mem_arrange {names : List String} (h : "" ∉ names) : [] ∉ arrange names := by
  intro hmem
  obtain ⟨key, hkey, hlower⟩ := mem_arrange.1 hmem
  have hempty : key = "" := String.toList_eq_nil_iff.1 (lower_eq_nil hlower)
  exact h (hempty ▸ hkey)

/-- In a registry that is put together no unit is registered under a name without characters. -/
theorem nil_not_mem_units {config : Config} (h : config.units.Consistent) :
    [] ∉ (ofConfig config).units := by
  intro hmem
  obtain ⟨key, u, hfind, hlower⟩ := mem_units_ofConfig.1 hmem
  obtain ⟨-, name, hname, hkey⟩ := h.named key u hfind
  have hempty : key = "" := String.toList_eq_nil_iff.1 (lower_eq_nil hlower)
  have hlowered : lower name.toList = [] := by
    rw [← hkey, lowercase, String.ofList_eq_empty_iff] at hempty
    exact hempty
  have hnone : name = "" := String.toList_eq_nil_iff.1 (lower_eq_nil hlowered)
  simp [MeasureUnit.names, hnone] at hname

end Lexicon

end LineCalc
