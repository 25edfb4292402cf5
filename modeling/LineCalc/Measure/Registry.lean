import LineCalc.Measure.Quantity
import LineCalc.NameTable

/-!
# The registry of units

A registry holds the units that have been added, the table in which their names are looked up, and
the groups within which a unit is chosen for display. A name belongs to one unit only, in whatever
case it is written. The units of plain numbers and of percentages are always there.
-/

namespace LineCalc

/-- Units, their names, and the groups they are shown in. -/
structure Registry where
  /-- Every unit, in the order of registration. -/
  units : List MeasureUnit
  /-- The unit that each name belongs to. -/
  byName : NameTable MeasureUnit
  /-- Groups of units of one family, each by ascending size. -/
  groups : List (List MeasureUnit)

namespace Registry

/-- The table with every name of a unit standing for it. -/
def index (table : NameTable MeasureUnit) (u : MeasureUnit) : NameTable MeasureUnit :=
  u.names.foldl (fun t name => t.insert name u) table

/-- The registry of plain numbers and percentages alone. -/
def empty : Registry where
  units := [.unitless, .percent]
  byName := index {} .percent
  groups := []

instance : Inhabited Registry := ⟨empty⟩

def lookup (r : Registry) (name : String) : Option MeasureUnit :=
  r.byName.find? name

/-- The unit of a name, which has to exist. -/
def get (r : Registry) (name : String) : Except UnitError MeasureUnit :=
  match r.lookup name with
  | some u => .ok u
  | none => .error (.unknownUnit name)

/-- Whether a name belongs to a unit other than `u`. -/
def taken (r : Registry) (u : MeasureUnit) (name : String) : Bool :=
  match r.lookup name with
  | some existing => !existing.sameAs u
  | none => false

/-- The registry with one more unit, if none of its names belongs to another one. -/
def add (r : Registry) (u : MeasureUnit) : Except UnitError Registry :=
  match u.names.find? (r.taken u) with
  | some name => .error (.duplicateName name)
  | none => .ok { r with units := r.units ++ [u], byName := index r.byName u }

def getAll (r : Registry) : List String → Except UnitError (List MeasureUnit)
  | [] => .ok []
  | name :: names =>
    match r.get name with
    | .error e => .error e
    | .ok u => (getAll r names).map (u :: ·)

/-- The registry with one more group: units of one family, which are put in ascending order. -/
def addGroup (r : Registry) (names : List String) : Except UnitError Registry :=
  match r.getAll names with
  | .error e => .error e
  | .ok [] => .error .emptyGroup
  | .ok (first :: others) =>
    match others.find? (fun u => !u.isConvertibleTo first) with
    | some stranger => .error (.mixedGroup first.family stranger.family)
    | none =>
      let ascending := sorted (fun u v => u.multiplier.le v.multiplier) (first :: others)
      .ok { r with groups := r.groups ++ [dropRepeats MeasureUnit.sameAs ascending] }

/-- The first group that a unit is in. -/
def groupFor (r : Registry) (u : MeasureUnit) : Option (List MeasureUnit) :=
  r.groups.find? fun group => group.any (·.sameAs u)

/-- A quantity in the unit of its group that shows it best, or as it is when it is in no group. -/
def select (r : Registry) (q : Quantity) (precision : Nat) : Except UnitError Quantity :=
  match r.groupFor q.unit with
  | some group => q.selectFrom group precision
  | none => .ok q

/-- Every name that a unit can be looked up by, in the order of code points. -/
def names (r : Registry) : List String :=
  sortNames r.byName.names

end Registry

end LineCalc
