import LineCalc.Decimal.Division
import LineCalc.Measure.Error
import LineCalc.Measure.Unit

/-!
# Quantities

A quantity is a magnitude in a unit. It can be expressed in any other unit of the family, and in a
group of units of growing size there is one that shows it best: the largest that needs no more
decimal places than the smaller ones before it.
-/

namespace LineCalc

/-- A magnitude in a unit. -/
structure Quantity where
  value : Decimal
  unit : MeasureUnit
  deriving DecidableEq, Inhabited

/-- A magnitude in one unit expressed in another unit of the same family. -/
def convertDecimal (value : Decimal) (source target : MeasureUnit) : Except UnitError Decimal :=
  if source.isConvertibleTo target then
    if source.multiplier.sameNumber target.multiplier then .ok value
    else
      match (value.mul? source.multiplier).bind (·.div? target.multiplier) with
      | some converted => .ok converted
      | none => .error .overflow
  else .error (.incompatible source.name target.name)

/-- How many decimal places a number needs after rounding to a precision. -/
def decimalPlaces (value : Decimal) (precision : Nat) : Nat :=
  (value.roundTo precision .halfAway).normalize.scale

namespace Quantity

/-- The quantity in a unit; a plain number takes the unit as it is. -/
def convertTo (q : Quantity) (target : MeasureUnit) : Except UnitError Quantity :=
  if q.unit.sameAs target then .ok q
  else if q.unit.isUnitless then .ok { q with unit := target }
  else (convertDecimal q.value q.unit target).map (⟨·, target⟩)

/--
Climbs through units of growing size from the best one so far, and stops before the first that
needs more decimal places.
-/
def climb (q : Quantity) (precision : Nat) (best : Quantity) :
    List MeasureUnit → Except UnitError Quantity
  | [] => .ok best
  | unit :: coarser =>
    match q.convertTo unit with
    | .error e => .error e
    | .ok candidate =>
      if decimalPlaces best.value precision < decimalPlaces candidate.value precision then .ok best
      else climb q precision candidate coarser

/-- The quantity in the unit of a group, smallest first, that shows it best. -/
def selectFrom (q : Quantity) (group : List MeasureUnit) (precision : Nat) :
    Except UnitError Quantity :=
  match group with
  | [] => .error .emptyGroup
  | base :: coarser =>
    match q.convertTo base with
    | .error e => .error e
    | .ok best => climb q precision best coarser

end Quantity

end LineCalc
