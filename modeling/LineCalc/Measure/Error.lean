/-!
# What goes wrong with units

Each way in which a unit or a conversion can fail, with what has to be said about it.
-/

namespace LineCalc

/-- Why an operation on units fails. -/
inductive UnitError where
  | unknownUnit (name : String)
  /-- The two units measure different things. -/
  | incompatible (source target : String)
  /-- The name belongs to another unit. -/
  | duplicateName (name : String)
  | emptyGroup
  /-- A group has to be of one family. -/
  | mixedGroup (family stranger : String)
  | overflow
  deriving Repr, DecidableEq

/-- What is said about the failure. -/
def UnitError.message : UnitError → String
  | unknownUnit name => s!"unknown unit '{name}'"
  | incompatible source target => s!"cannot convert unit {source} to {target}"
  | duplicateName name => s!"unit name '{name}' is already registered"
  | emptyGroup => "auto-conversion group must not be empty"
  | mixedGroup family stranger =>
    s!"auto-conversion group mixes families '{family}' and '{stranger}'"
  | overflow => "numeric overflow"

end LineCalc
