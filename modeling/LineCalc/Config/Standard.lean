import LineCalc.Config.Basic

/-!
# The standard vocabulary

The units, operators, functions and aggregators that a calculator knows unless it is told
otherwise. Percent phrases bind loosest, then sums, products, conversions and signs.
-/

namespace LineCalc.Standard

/-! ## Units -/

/-- A unit whose only form to show is its name. -/
def simpleUnit (family name : String) (multiplier : Decimal) (synonyms : List String) :
    MeasureUnit :=
  .make family name multiplier [name] [synonyms]

/-- Lengths, in millimetres. -/
def lengths : List MeasureUnit :=
  [ simpleUnit "length" "mm" .one ["millimeter", "millimeters", "millimetre", "millimetres"],
    simpleUnit "length" "cm" .ten
      ["centimeter", "centimeters", "centimetre", "centimetres"],
    simpleUnit "length" "m" (.ofInt 1000) ["meter", "meters", "metre", "metres"],
    simpleUnit "length" "km" (.ofInt 1000000)
      ["kilometer", "kilometers", "kilometre", "kilometres"],
    simpleUnit "length" "in" (.ofScaled 254 1) ["inch", "inches"],
    simpleUnit "length" "ft" (.ofScaled 3048 1) ["foot", "feet"],
    simpleUnit "length" "yd" (.ofScaled 9144 1) ["yard", "yards"],
    simpleUnit "length" "mi" (.ofInt 1609344) ["mile", "miles"] ]

/-- Weights, in milligrams. -/
def weights : List MeasureUnit :=
  [ simpleUnit "weight" "mg" .one ["milligram", "milligrams"],
    simpleUnit "weight" "g" (.ofInt 1000) ["gram", "grams"],
    simpleUnit "weight" "kg" (.ofInt 1000000) ["kilogram", "kilograms", "kilo", "kilos"],
    simpleUnit "weight" "t" (.ofInt 1000000000) ["tonne", "tonnes", "ton", "tons"],
    simpleUnit "weight" "oz" (.ofScaled 28349523125 6) ["ounce", "ounces"],
    simpleUnit "weight" "lb" (.ofScaled 45359237 2) ["lbs", "pound", "pounds"] ]

/-- Volumes, in millilitres. -/
def volumes : List MeasureUnit :=
  [ simpleUnit "volume" "ml" .one ["milliliter", "milliliters", "millilitre", "millilitres"],
    simpleUnit "volume" "cl" .ten ["centiliter", "centiliters"],
    simpleUnit "volume" "dl" .hundred ["deciliter", "deciliters"],
    simpleUnit "volume" "l" (.ofInt 1000) ["liter", "liters", "litre", "litres"],
    simpleUnit "volume" "gal" (.ofScaled 3785411784 6) ["gallon", "gallons"] ]

/-- Durations, in nanoseconds. -/
def durations : List MeasureUnit :=
  let family := MeasureUnit.durationFamily
  [ simpleUnit family "ns" .one ["nanosecond", "nanoseconds"],
    simpleUnit family "ms" (.ofInt 1000000) ["millisecond", "milliseconds"],
    simpleUnit family "s" (.ofInt 1000000000) ["sec", "secs", "second", "seconds"],
    simpleUnit family "min" (.ofInt 60000000000) ["mins", "minute", "minutes"],
    simpleUnit family "h" (.ofInt 3600000000000) ["hr", "hrs", "hour", "hours"],
    .make family "day" (.ofInt 86400000000000) ["day", "days"] [],
    .make family "week" (.ofInt 604800000000000) ["week", "weeks"] [["wk"]] ]

/-- Currencies, which have no rates between them and so a family each. -/
def currencies : List MeasureUnit :=
  [ simpleUnit "currency:EUR" "EUR" .one ["€", "euro", "euros"],
    simpleUnit "currency:USD" "USD" .one ["$", "dollar", "dollars"],
    simpleUnit "currency:GBP" "GBP" .one ["£", "sterling"],
    simpleUnit "currency:JPY" "JPY" .one ["¥", "yen"],
    simpleUnit "currency:CHF" "CHF" .one ["franc", "francs"] ]

/-- Units registered one after the other. -/
def addUnits (r : Registry) (units : List MeasureUnit) : Except UnitError Registry :=
  units.foldlM Registry.add r

/-- The standard units and the groups in which they are shown. -/
def registerUnits : Except UnitError Registry := do
  let r ← addUnits .empty lengths
  let r ← r.addGroup ["mm", "cm", "m", "km"]
  let r ← addUnits r weights
  let r ← r.addGroup ["mg", "g", "kg", "t"]
  let r ← addUnits r volumes
  let r ← r.addGroup ["ml", "cl", "dl", "l"]
  let r ← addUnits r durations
  let r ← r.addGroup ["ms", "s", "min", "h", "day"]
  addUnits r currencies

/-- The registry of the standard units. -/
def units : Registry :=
  registerUnits.toOption.getD .empty

/-! ## Operators -/

def phrasePrecedence : Nat := 1

def additivePrecedence : Nat := 2

def multiplicativePrecedence : Nat := 3

def conversionPrecedence : Nat := 4

def unaryPrecedence : Nat := 5

/-- An operator between operands that groups to the left. -/
def binary (symbol : String) (precedence : Nat) (operation : BinaryOperation) : Operator :=
  .binary {
    symbol, precedence, operation
    associativity := .left
    isConversion := false }

/-- An operator that asks for a unit. -/
def conversion (symbol : String) : Operator :=
  .binary {
    symbol
    precedence := conversionPrecedence
    associativity := .left
    isConversion := true
    operation := .convert }

/-- An operator before its operand. -/
def unary (symbol : String) (operation : UnaryOperation) : Operator :=
  .unary { symbol, precedence := unaryPrecedence, isConversion := false, operation }

def operators : List Operator :=
  [ binary "+" additivePrecedence (.arithmetic .add),
    binary "plus" additivePrecedence (.arithmetic .add),
    binary "-" additivePrecedence (.arithmetic .subtract),
    binary "minus" additivePrecedence (.arithmetic .subtract),
    binary "*" multiplicativePrecedence (.arithmetic .multiply),
    binary "times" multiplicativePrecedence (.arithmetic .multiply),
    binary "/" multiplicativePrecedence (.arithmetic .divide),
    binary "divided by" multiplicativePrecedence (.arithmetic .divide),
    unary "-" .negate,
    conversion "to",
    conversion "as",
    binary "from" additivePrecedence .fromDate,
    unary "days until" .daysUntil,
    binary "on" phrasePrecedence (.percent .on),
    binary "off" phrasePrecedence (.percent .off),
    binary "of" phrasePrecedence (.percent .of),
    binary "on what is" phrasePrecedence (.percent .onWhatIs),
    binary "off what is" phrasePrecedence (.percent .offWhatIs),
    binary "of what is" phrasePrecedence (.percent .ofWhatIs),
    binary "as a % of" phrasePrecedence (.compare .of),
    binary "as a % on" phrasePrecedence (.compare .on),
    binary "as a % off" phrasePrecedence (.compare .off) ]

/-! ## Functions and aggregators -/

def functions : List Function :=
  [ ⟨"round", .round .round⟩,
    ⟨"ceil", .round .ceil⟩,
    ⟨"ceiling", .round .ceil⟩,
    ⟨"floor", .round .floor⟩ ]

def aggregators : List Aggregator :=
  [ ⟨"sum", .sum⟩,
    ⟨"total", .sum⟩,
    ⟨"average", .average⟩,
    ⟨"avg", .average⟩,
    ⟨"prev", .prev⟩,
    ⟨"now", .now⟩,
    ⟨"today", .today⟩,
    ⟨"tomorrow", .tomorrow⟩,
    ⟨"yesterday", .yesterday⟩ ]

/-- The standard vocabulary as a draft. -/
def draft : Draft :=
  let withUnits : Draft := { units }
  let withOperators := operators.foldl Draft.addOperator withUnits
  let withFunctions := functions.foldl Draft.addFunction withOperators
  aggregators.foldl Draft.addAggregator withFunctions

/-- Entries leave alone every part of a draft that adding one leaves alone. -/
theorem foldl_eq {α β : Type} (add : Draft → α → Draft) (part : Draft → β)
    (hadd : ∀ d a, part (add d a) = part d) (entries : List α) (d : Draft) :
    part (entries.foldl add d) = part d := by
  induction entries generalizing d with
  | nil => rfl
  | cons a rest ih => rw [List.foldl_cons, ih, hadd]

/-- What no operator, function or aggregator changes is as it was before the entries were added. -/
theorem part_draft {β : Type} (part : Draft → β)
    (hop : ∀ d op, part (Draft.addOperator d op) = part d)
    (hfn : ∀ d f, part (Draft.addFunction d f) = part d)
    (hagg : ∀ d a, part (Draft.addAggregator d a) = part d) : part draft = part { units } := by
  unfold draft
  rw [foldl_eq Draft.addAggregator part hagg, foldl_eq Draft.addFunction part hfn,
    foldl_eq Draft.addOperator part hop]

/-- Entries of the vocabulary leave the number format alone. -/
theorem format_draft : draft.format = {} :=
  part_draft Draft.format (fun _ op => by cases op <;> rfl) (fun _ _ => rfl) fun _ _ => rfl

end LineCalc.Standard

namespace LineCalc

/-- The standard vocabulary with a decimal point and no grouping. -/
def Config.standard : Config where
  toDraft := Standard.draft
  acceptable := by
    rw [Standard.format_draft]
    decide

instance : Inhabited Config := ⟨Config.standard⟩

end LineCalc
