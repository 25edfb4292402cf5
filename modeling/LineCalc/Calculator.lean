import LineCalc.Lexicon
import LineCalc.Machine
import LineCalc.Plan.OfTokens
import LineCalc.Text.Line

/-!
# The calculator

A calculator evaluates lines: it reads the tokens, makes the plan, runs it in the environment of
the document and records the result. A line that cannot be read, or of which no plan can be made,
counts as empty. What is shown of a result of arithmetic is in the unit that shows it best, unless
the line asks for a unit.

A vocabulary can have names without characters, and then the reading of a line need not end. Each
call is therefore there in two forms: `evaluate?` and its kind have no result where the reading does
not end, and `evaluate` and its kind, which are run, give the same result where it ends.
-/

namespace LineCalc

/-- A configuration with the lexicon that lines are read by. -/
structure Calculator where
  config : Config
  lexicon : Lexicon := .ofConfig config
  lexicon_eq : lexicon = .ofConfig config := by rfl

/-- Why no plan can be made of a line. -/
inductive CompileError where
  | lex (error : LexError)
  | parse (failure : ParseFailure)
  deriving DecidableEq

namespace NumberFormat

/-- The text of a value; units on their own, empty lines and failures have none. -/
def formatValue (f : NumberFormat) : Value → String
  | .number q =>
    if q.unit.isUnitless then f.format q.value
    else s!"{f.format q.value} {q.unit.displayName (f.round q.value)}"
  | .moment instant hasTime =>
    let date := String.ofList instant.date.toText
    if hasTime then s!"{date} {String.ofList instant.time.toText}" else date
  | .marker _ | .empty | .failed _ => ""

end NumberFormat

namespace Calculator

def ofConfig (config : Config) : Calculator := { config }

/-- The plan of a line that has been read. -/
def planOf (c : Calculator) : Except LexError (List Token) → Except CompileError Plan
  | .error e => .error (.lex e)
  | .ok tokens =>
    match Plan.ofTokens c.config tokens with
    | .error failure => .error (.parse failure)
    | .ok plan => .ok plan

/-- The plan of a line. -/
def compile (c : Calculator) (line : String) : Except CompileError Plan :=
  c.planOf (c.lexicon.lex line)

/-- Runs the plan of a line, if there is one, and records the value. -/
def runCompiled (c : Calculator) (env : Environment) :
    Except CompileError Plan → Environment × Value
  | .ok plan => Machine.execute c.config.units env plan
  | .error _ => (env.record .empty, .empty)

/-- Evaluates a line and records its value. -/
def evaluate (c : Calculator) (env : Environment) (line : String) : Environment × Value :=
  c.runCompiled env (c.compile line)

/-- Whether a unit is chosen for what a plan computes: arithmetic without a conversion. -/
def selects (plan : Plan) : Bool :=
  plan.hasArithmetic && !plan.hasConversion

/-- The value to show for the result of a plan: where a unit is chosen, the one that shows it best. -/
def selectUnit (c : Calculator) (plan : Plan) (value : Value) : Value :=
  match value with
  | .number q =>
    if q.unit.isUnitless || !selects plan then value
    else
      match c.config.units.select q c.config.format.precision with
      | .ok best => .number best
      | .error _ => value
  | _ => value

/-- The value to show for the value of a line. -/
def shown (c : Calculator) (compiled : Except CompileError Plan) (value : Value) : Value :=
  match compiled with
  | .ok plan => c.selectUnit plan value
  | .error _ => value

/-- Runs the plan of a line, records the value, and gives the text to show. -/
def showCompiled (c : Calculator) (env : Environment) (compiled : Except CompileError Plan) :
    Environment × String :=
  let (env, value) := c.runCompiled env compiled
  (env, c.config.format.formatValue (c.shown compiled value))

/-- Evaluates a line, records its value, and gives the text to show. -/
def evaluateLine (c : Calculator) (env : Environment) (line : String) : Environment × String :=
  c.showCompiled env (c.compile line)

/-- Evaluates lines one after the other, and gives the text to show for each. -/
def evaluateLines (c : Calculator) (env : Environment) :
    List String → Environment × List String
  | [] => (env, [])
  | line :: rest =>
    let (env, text) := c.evaluateLine env line
    let (env, texts) := c.evaluateLines env rest
    (env, text :: texts)

def evaluateDocument (c : Calculator) (env : Environment) (text : String) :
    Environment × List String :=
  c.evaluateLines env (Text.lines text)

/-! ## Calls that need not return -/

/-- The plan of a line; there is none if the reading of the line does not end. -/
def compile? (c : Calculator) (line : String) : Option (Except CompileError Plan) :=
  (c.lexicon.read? line).map c.planOf

/-- Evaluates a line and records its value, if the reading of the line ends. -/
def evaluate? (c : Calculator) (env : Environment) (line : String) :
    Option (Environment × Value) :=
  (c.compile? line).map (c.runCompiled env)

/-- Evaluates a line, records its value, and gives the text to show, if the reading ends. -/
def evaluateLine? (c : Calculator) (env : Environment) (line : String) :
    Option (Environment × String) :=
  (c.compile? line).map (c.showCompiled env)

/-- Evaluates lines one after the other, as long as the reading of each of them ends. -/
def evaluateLines? (c : Calculator) (env : Environment) :
    List String → Option (Environment × List String)
  | [] => some (env, [])
  | line :: rest => do
    let (env, text) ← c.evaluateLine? env line
    let (env, texts) ← c.evaluateLines? env rest
    some (env, text :: texts)

/-- Evaluates the lines of a text, as long as the reading of each of them ends. -/
def evaluateDocument? (c : Calculator) (env : Environment) (text : String) :
    Option (Environment × List String) :=
  c.evaluateLines? env (Text.lines text)

end Calculator

end LineCalc
