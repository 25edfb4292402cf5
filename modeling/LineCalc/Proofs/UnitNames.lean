import LineCalc.Proofs.Lexing
import LineCalc.Proofs.Lowercase
import LineCalc.Proofs.Names
import Mathlib.Data.Bool.AllAny

/-!
# The names of the standard units

Every standard unit is written with small letters only, or with a single sign, and no other name of
the standard vocabulary is written like it.

* **`isUnitWord`**: what the names of units have in common.
* **`isUnitWord_of_named`**: every name in the registry is of that form.
* **`symbols`**: the operators that are a single sign.
* **`unitWord_of_lookup`**: so is every text that names a unit, once it is in lowercase.
-/

namespace LineCalc.Standard

open Text Lexicon

/-- The names and characters by which lines are read in the standard vocabulary. -/
def lexicon : Lexicon := .ofConfig .standard

/-! ## Words -/

/-- The small letters from a to z. -/
def isLetter (c : Char) : Bool :=
  97 ≤ c.toNat && c.toNat ≤ 122

/-- The signs that stand for units. -/
def signs : List Char := ['%', '$', '€', '£', '¥']

/-- A word of small letters that is read as no operator, or a single sign. -/
def isUnitWord (name : List Char) : Bool :=
  (name.all isLetter && !name.isEmpty && name.head? != some 'a' &&
      !(lexicon.operators ++ lexicon.functions ++ lexicon.aggregators).contains name) ||
    signs.any (name == [·])

/-- Every name of a standard unit is such a word in lowercase. -/
theorem isUnitWord_names :
    (listedUnits.all fun u => u.names.all fun name => isUnitWord (lower name.toList)) = true := by
  decide +kernel

theorem consistent_units : Config.standard.units.Consistent :=
  built_draft.consistent

/-- Every name in the registry is a unit word. -/
theorem isUnitWord_of_named {key : String} {u : MeasureUnit}
    (h : Config.standard.units.byName.entries.find? key = some u) :
    isUnitWord key.toList = true := by
  obtain ⟨hmem, name, hname, rfl⟩ := consistent_units.named key u h
  have hlisted : u ∈ listedUnits := mem_listedUnits (units_standard ▸ hmem)
  have hword := List.all_eq_true.1 (List.all_eq_true.1 isUnitWord_names u hlisted) name hname
  rw [lowercase, String.toList_ofList]
  exact hword

/-! ## The characters of unit words -/

/-- A character that starts no literal, structures no line and is its own lowercase. -/
structure Plain (c : Char) : Prop where
  blank : isBlank c = false
  digit : isDigit c = false
  start : c ∉ '.' :: NumberFormat.structural
  special : c ∉ specialLowercase
  sigma : c ≠ 'Σ'
  lower : lowerChar c = [c]

instance (c : Char) : Decidable (Plain c) :=
  decidable_of_iff (isBlank c = false ∧ isDigit c = false ∧ c ∉ '.' :: NumberFormat.structural ∧
      c ∉ specialLowercase ∧ c ≠ 'Σ' ∧ lowerChar c = [c])
    ⟨fun ⟨blank, digit, start, special, sigma, lower⟩ =>
      ⟨blank, digit, start, special, sigma, lower⟩,
      fun h => ⟨h.blank, h.digit, h.start, h.special, h.sigma, h.lower⟩⟩

theorem plain_of_isLetter {c : Char} (h : isLetter c = true) :
    Plain c ∧ isAlphabetic c = true ∧ c ∉ lexicon.delimiters := by
  -- there are so few letters that each of them can be looked at
  have hletters : ∀ n < 123, 97 ≤ n → Plain (Char.ofNat n) ∧ isAlphabetic (Char.ofNat n) = true ∧
      Char.ofNat n ∉ lexicon.delimiters := by
    decide +kernel
  simp only [isLetter, Bool.and_eq_true, decide_eq_true_eq] at h
  have hc := hletters c.toNat (by omega) h.1
  rwa [Char.ofNat_toNat] at hc

theorem plain_of_mem_signs : ∀ c ∈ signs, Plain c :=
  List.all_iff_forall_prop.1 (by decide +kernel)

/-! ## Operators of one sign -/

/-- The operators that are a single sign. -/
def symbols : List Char := ['+', '-', '*', '/']

/-- Only the sign itself starts like it among the operators. -/
theorem operators_symbol : ∀ c ∈ symbols, [c] ∈ lexicon.operators ∧
    ∀ name ∈ lexicon.operators, name ≠ [c] → name.head? ≠ some c ∧ name ≠ [] :=
  List.all_iff_forall_prop.1 (by decide +kernel)

theorem plain_of_mem_symbols : ∀ c ∈ symbols, Plain c ∧ isAlphabetic c = false :=
  List.all_iff_forall_prop.1 (by decide +kernel)

/-! ## Unit words -/

/-- A unit word is made of letters and is no other name, or it is a single sign. -/
theorem isUnitWord_iff {name : List Char} :
    isUnitWord name = true ↔
      ((∀ c ∈ name, isLetter c = true) ∧ name ≠ [] ∧ name.head? ≠ some 'a' ∧
        name ∉ lexicon.operators ++ lexicon.functions ++ lexicon.aggregators) ∨
      ∃ c ∈ signs, name = [c] := by
  unfold isUnitWord
  simp [and_assoc]

theorem plain_of_isUnitWord {name : List Char} (h : isUnitWord name = true) :
    ∀ c ∈ name, Plain c := by
  rcases isUnitWord_iff.1 h with ⟨hletters, _⟩ | ⟨sign, hsign, rfl⟩
  · exact fun c hc => (plain_of_isLetter (hletters c hc)).1
  · intro c hc
    obtain rfl := List.mem_singleton.1 hc
    exact plain_of_mem_signs c hsign

theorem lower_of_isUnitWord {name : List Char} (h : isUnitWord name = true) : lower name = name := by
  have hself : LowersTo name name := List.forall₂_same.2 fun c hc =>
    have hplain : Plain c := plain_of_isUnitWord h c hc
    ⟨hplain.sigma, hplain.lower⟩
  exact hself.lower_eq

theorem isUnitWord_of_mem_units {name : List Char} (h : name ∈ lexicon.units) :
    isUnitWord name = true := by
  obtain ⟨key, u, hfind, hlower⟩ := mem_units_ofConfig.1 h
  have hword : isUnitWord key.toList = true := isUnitWord_of_named hfind
  rwa [← hlower, lower_of_isUnitWord hword]

/-- A name of a unit is a unit word of the lexicon, in whatever case it is written. -/
theorem unitWord_of_lookup {name : String} {u : MeasureUnit}
    (h : Config.standard.units.lookup name = some u) :
    LowersTo name.toList (lower name.toList) ∧ isUnitWord (lower name.toList) = true ∧
      lower name.toList ∈ lexicon.units := by
  rw [Registry.lookup_eq] at h
  have hword : isUnitWord (lower name.toList) = true := by
    have hkey := isUnitWord_of_named h
    rwa [lowercase, String.toList_ofList] at hkey
  have hmem : lower (lower name.toList) ∈ lexicon.units := by
    refine mem_units_ofConfig.2 ⟨lowercase name, u, h, ?_⟩
    rw [lowercase, String.toList_ofList]
  rw [lower_of_isUnitWord hword] at hmem
  exact ⟨lowersTo_of_lower rfl fun c hc => (plain_of_isUnitWord hword c hc).special, hword, hmem⟩

end LineCalc.Standard
