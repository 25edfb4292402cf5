import LineCalc.Config.Operator
import LineCalc.NumberFormat
import LineCalc.Text.Numeric

/-!
# Configurations

A configuration is the vocabulary of a calculator together with its number format: the tables of
operators, functions and aggregators, the registry of units, and the separators. It is put together
entry by entry as a draft; a draft becomes a configuration when its separators can be told apart
from digits, words, white space and the characters that structure a line.
-/

namespace LineCalc

/-- A configuration in the making. -/
structure Draft where
  binaryOperators : NameTable BinaryOperator := {}
  unaryOperators : NameTable UnaryOperator := {}
  functions : NameTable Function := {}
  aggregators : NameTable Aggregator := {}
  units : Registry := .empty
  format : NumberFormat := {}

/-- Why a draft is not a configuration. -/
inductive ConfigError where
  | decimalSeparator (separator : Char)
  | equalSeparators
  deriving Repr, DecidableEq

namespace ConfigError

/-- What is said about a draft that is not a configuration. -/
def message : ConfigError → String
  | decimalSeparator separator => s!"'{separator}' cannot be used as decimal separator"
  | equalSeparators => "grouping and decimal separator must differ"

/-- The message under the name of its category. -/
def text (e : ConfigError) : String :=
  "Configuration error: " ++ e.message

end ConfigError

namespace NumberFormat

/-- The characters that structure a line. -/
def structural : List Char := ['(', ')', ';', ':', '=', '#']

/-- Whether a character can be told apart from digits, words, white space and structure. -/
def isSeparator (c : Char) : Bool :=
  !Text.isAlphanumeric c && !Text.isBlank c && !structural.contains c

/-- The separators can be told apart from what surrounds them and from each other. -/
def Acceptable (f : NumberFormat) : Prop :=
  isSeparator f.decimalSeparator = true ∧ f.groupingSeparator ≠ some f.decimalSeparator

instance (f : NumberFormat) : Decidable f.Acceptable :=
  inferInstanceAs (Decidable (_ ∧ _))

end NumberFormat

/-- A vocabulary with a number format whose separators can be told apart. -/
structure Config extends Draft where
  acceptable : format.Acceptable

namespace Draft

instance : Inhabited Draft := ⟨{}⟩

def addUnit (d : Draft) (u : MeasureUnit) : Except UnitError Draft :=
  (d.units.add u).map fun units => { d with units }

def addGroup (d : Draft) (names : List String) : Except UnitError Draft :=
  (d.units.addGroup names).map fun units => { d with units }

/-- The draft with one more operator; one before and one between operands may share a symbol. -/
def addOperator (d : Draft) : Operator → Draft
  | .unary op => { d with unaryOperators := d.unaryOperators.insert op.symbol op }
  | .binary op => { d with binaryOperators := d.binaryOperators.insert op.symbol op }

def addFunction (d : Draft) (f : Function) : Draft :=
  { d with functions := d.functions.insert f.name f }

def addAggregator (d : Draft) (a : Aggregator) : Draft :=
  { d with aggregators := d.aggregators.insert a.name a }

def withDecimalSeparator (d : Draft) (separator : Char) : Draft :=
  { d with format := { d.format with decimalSeparator := separator } }

def withGroupingSeparator (d : Draft) (separator : Option Char) : Draft :=
  { d with format := { d.format with groupingSeparator := separator } }

/-- The configuration that a draft describes. -/
def build (d : Draft) : Except ConfigError Config :=
  if h : d.format.Acceptable then .ok { d with acceptable := h }
  else if NumberFormat.isSeparator d.format.decimalSeparator then .error .equalSeparators
  else .error (.decimalSeparator d.format.decimalSeparator)

/-- Every operator symbol in lowercase, once each, in the order of code points. -/
def operatorSymbols (d : Draft) : List String :=
  dropRepeats (· == ·) (sortNames (d.binaryOperators.names ++ d.unaryOperators.names))

/-- A draft is built exactly when its separators can be told apart, and then it stays as it is. -/
theorem build_eq_ok_iff {d : Draft} {c : Config} :
    d.build = .ok c ↔ c.toDraft = d := by
  constructor
  · intro h
    unfold build at h
    split at h
    · cases h
      rfl
    · split at h <;> simp at h
  · rintro rfl
    simp [build, c.acceptable]

end Draft

end LineCalc
