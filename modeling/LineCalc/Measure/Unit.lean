import LineCalc.Decimal.Basic

/-!
# Units of measure

A unit belongs to a family, and its multiplier is its size in the family's base unit: with the
millimetre as base, a centimetre has multiplier 10. Two families are special. Numbers without a
unit carry the one unit of the family `unitless`, and percentages have rules of their own.
-/

namespace LineCalc

/-- A unit of measure. -/
structure MeasureUnit where
  /-- Units of one family are converted into one another. -/
  family : String
  /-- The name that identifies the unit in its family. -/
  name : String
  /-- The size of the unit in the base unit of the family. -/
  multiplier : Decimal
  /-- The form shown for one, and the form shown for any other amount if there is one. -/
  displayNames : List String
  /-- Further names, in sets. -/
  synonyms : List (List String)
  displayNames_ne_nil : displayNames ≠ []
  deriving DecidableEq

namespace MeasureUnit

def unitlessFamily : String := "unitless"

def percentFamily : String := "percent"

/-- The family of durations, whose base unit is the nanosecond. -/
def durationFamily : String := "duration"

/-- A unit; one that is given no form to show is shown by its name. -/
def make (family name : String) (multiplier : Decimal) (displayNames : List String)
    (synonyms : List (List String)) : MeasureUnit :=
  match displayNames with
  | [] => ⟨family, name, multiplier, [name], synonyms, by simp⟩
  | shown :: others => ⟨family, name, multiplier, shown :: others, synonyms, by simp⟩

def unitless : MeasureUnit :=
  make unitlessFamily "" .one [""] []

def percent : MeasureUnit :=
  make percentFamily "%" .one ["%"] [["percent"]]

instance : Inhabited MeasureUnit := ⟨unitless⟩

def isUnitless (u : MeasureUnit) : Bool :=
  u.family == unitlessFamily

def isPercent (u : MeasureUnit) : Bool :=
  u.family == percentFamily

/-- Whether two units are one and the same: family and name decide. -/
def sameAs (u v : MeasureUnit) : Bool :=
  u.family == v.family && u.name == v.name

/-- Whether amounts in one unit can be expressed in the other. -/
def isConvertibleTo (u v : MeasureUnit) : Bool :=
  u.family == v.family

/-- The form shown for one. -/
def singular (u : MeasureUnit) : String :=
  u.displayNames.head u.displayNames_ne_nil

/-- The form shown for a magnitude: singular for exactly one, plural for any other. -/
def displayName (u : MeasureUnit) (magnitude : Decimal) : String :=
  if magnitude.sameNumber .one then u.singular else u.displayNames[1]?.getD u.singular

/-- Every name that the unit answers to: its own, the forms shown and the synonyms. -/
def names (u : MeasureUnit) : List String :=
  (u.name :: u.displayNames ++ u.synonyms.flatten).filter (· ≠ "")

theorem sameAs_iff {u v : MeasureUnit} :
    u.sameAs v = true ↔ u.family = v.family ∧ u.name = v.name := by
  simp [sameAs]

end MeasureUnit

end LineCalc
