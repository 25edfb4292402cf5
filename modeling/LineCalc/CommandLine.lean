import LineCalc.Calculator
import LineCalc.Config.Standard
import LineCalc.FileTree

/-!
# The command line

The program evaluates a document, which it takes from a file or from standard input, and prints one
result for each line. Options choose the separators of numbers and whether the lines are printed
next to their results. Arguments are taken in one after the other, and the first one that cannot be
understood, or that asks for help, decides.
-/

namespace LineCalc.CommandLine

/-- What the arguments ask for. -/
structure Options where
  /-- The document, standard input if there is none. -/
  file : Option String := none
  /-- Stands between the integer part and the fraction of numbers. -/
  decimalSeparator : Option Char := none
  /-- Stands between groups of digits in what is printed. -/
  groupingSeparator : Option Char := none
  /-- Whether lines are printed next to their results. -/
  sideBySide : Bool := false
  /-- The level of diagnostics, which are left out: it is taken in, and nothing is logged. -/
  logLevel : Option String := none
  deriving Repr, DecidableEq

/-- What can be wrong with the arguments. -/
inductive UsageError where
  | unexpectedArgument (text : String)
  | missingValue (option : String)
  | unexpectedValue (option : String)
  | invalidValue (option value : String)
  | repeated (option : String)
  deriving Repr, DecidableEq

/-- What is said about arguments that cannot be understood. -/
def UsageError.message : UsageError → String
  | unexpectedArgument text => s!"unexpected argument '{text}'"
  | missingValue option => s!"a value is required for '{option}'"
  | unexpectedValue option => s!"no value is expected for '{option}'"
  | invalidValue option value => s!"invalid value '{value}' for '{option}'"
  | repeated option => s!"'{option}' cannot be used more than once"

/-- What the program is to do. -/
inductive Request where
  | evaluate (options : Options)
  | help
  | version
  deriving Repr, DecidableEq

/-- The options that take a value. -/
inductive Setting where
  | decimalSeparator
  | groupingSeparator
  | logLevel
  deriving Repr, DecidableEq

def Setting.name : Setting → String
  | decimalSeparator => "decimal-separator"
  | groupingSeparator => "grouping-separator"
  | logLevel => "log-level"

def Setting.ofName? (name : String) : Option Setting :=
  [decimalSeparator, groupingSeparator, logLevel].find? (·.name == name)

/-- The only character of a text. -/
def onlyChar? (text : String) : Option Char :=
  match text.toList with
  | [c] => some c
  | _ => none

def Options.set (o : Options) (setting : Setting) (value : String) : Except UsageError Options :=
  match setting, onlyChar? value with
  | .decimalSeparator, some c =>
    if o.decimalSeparator.isSome then .error (.repeated setting.name)
    else .ok { o with decimalSeparator := some c }
  | .groupingSeparator, some c =>
    if o.groupingSeparator.isSome then .error (.repeated setting.name)
    else .ok { o with groupingSeparator := some c }
  | .logLevel, _ =>
    if o.logLevel.isSome then .error (.repeated setting.name)
    else .ok { o with logLevel := some value }
  | _, none => .error (.invalidValue setting.name value)

def Options.setSideBySide (o : Options) : Except UsageError Options :=
  if o.sideBySide then .error (.repeated "side-by-side") else .ok { o with sideBySide := true }

def Options.setFile (o : Options) (name : String) : Except UsageError Options :=
  if name.isEmpty || o.file.isSome then .error (.unexpectedArgument name)
  else .ok { o with file := some name }

/-- Whether an argument is an option rather than a value; a single hyphen is a value. -/
def isOption (text : String) : Bool :=
  match text.toList with
  | '-' :: _ :: _ => true
  | _ => false

/-- Either what is asked for so far, or a request that makes all further arguments void. -/
inductive Reading where
  | more (options : Options)
  | done (request : Request)

/-- Takes in options of one letter each, which share one hyphen. -/
def readLetters (o : Options) : List Char → Except UsageError Reading
  | [] => .ok (.more o)
  | 's' :: rest => do
    let o ← o.setSideBySide
    readLetters o rest
  | 'h' :: _ => .ok (.done .help)
  | 'V' :: _ => .ok (.done .version)
  | c :: _ => .error (.unexpectedArgument (String.ofList ['-', c]))

def readFlag (o : Options) (name : String) : Except UsageError Reading :=
  if name = "side-by-side" then o.setSideBySide.map .more
  else if name = "help" then .ok (.done .help)
  else if name = "version" then .ok (.done .version)
  else .error (.unexpectedArgument ("--" ++ name))

/-- The name of a long option, and its value if one follows an equals sign. -/
def splitOption (text : List Char) : String × Option String :=
  match text.span (· ≠ '=') with
  | (name, []) => (String.ofList name, none)
  | (name, _ :: value) => (String.ofList name, some (String.ofList value))

/-- What a long option with an equals sign asks for. -/
def readWithValue (o : Options) (name value : String) : Except UsageError Reading :=
  match Setting.ofName? name with
  | some setting => (o.set setting value).map .more
  | none =>
    if ["side-by-side", "help", "version"].contains name then .error (.unexpectedValue name)
    else .error (.unexpectedArgument ("--" ++ name))

/-- Takes in arguments that are values whatever they look like. -/
def readValues (o : Options) : List String → Except UsageError Request
  | [] => .ok (.evaluate o)
  | name :: rest => do
    let o ← o.setFile name
    readValues o rest

def read (o : Options) : List String → Except UsageError Request
  | [] => .ok (.evaluate o)
  | arg :: rest =>
    match arg.toList with
    | ['-', '-'] => readValues o rest
    | '-' :: '-' :: text =>
      match splitOption text with
      | (name, some value) => do
        match ← readWithValue o name value with
        | .more o => read o rest
        | .done request => .ok request
      | (name, none) =>
        match Setting.ofName? name, rest with
        | some setting, [] => .error (.missingValue setting.name)
        | some setting, value :: rest =>
          if isOption value then .error (.missingValue setting.name)
          else do
            let o ← o.set setting value
            read o rest
        | none, rest => do
          match ← readFlag o name with
          | .more o => read o rest
          | .done request => .ok request
    | '-' :: c :: letters => do
      match ← readLetters o (c :: letters) with
      | .more o => read o rest
      | .done request => .ok request
    | _ => do
      let o ← o.setFile arg
      read o rest

/-- What the arguments ask for. -/
def parse (args : List String) : Except UsageError Request :=
  read {} args

/-! ## Running -/

/-- What the program leaves behind. -/
structure Outcome where
  exitCode : Nat
  stdout : String
  stderr : String
  deriving Repr, DecidableEq

/-- A text whose lines after the first are indented by four places. -/
def hanging : List Char → List Char
  | [] => []
  | c :: rest =>
    if c = '\n' then c :: ' ' :: ' ' :: ' ' :: ' ' :: hanging rest else c :: hanging rest

/-- A failure, and what caused it, indented below it. -/
def failure (what cause : String) : Outcome where
  exitCode := 1
  stdout := ""
  stderr := s!"Error: {what}\n\nCaused by:\n    " ++ String.ofList (hanging cause.toList) ++ "\n"

/-- What a document is called when it cannot be read. -/
def Options.source (o : Options) : String :=
  o.file.getD "stdin"

/-- The document that is asked for: at a path from the working directory, or what is typed in. -/
def Options.document (o : Options) (working : Place) (input : Except ReadFailure String) :
    Except ReadFailure String :=
  match o.file with
  | some path => working.read path
  | none => input

/-- The standard configuration with the separators that are asked for. -/
def Options.config (o : Options) : Except ConfigError Config :=
  ((Standard.draft.withDecimalSeparator (o.decimalSeparator.getD '.')).withGroupingSeparator
    o.groupingSeparator).build

/-- The line that is printed for a line of the document and its result. -/
def Options.printed (o : Options) (line result : String) : String :=
  if o.sideBySide then s!"{line} ⇒ {result}\n" else s!"{result}\n"

/--
Evaluates a document and prints a result for each of its lines. The clock has been read once, and
all lines have that time; one that is read at each use could go on between two of them.
-/
def run (o : Options) (now : Instant) (document : Except ReadFailure String) : Outcome :=
  match document with
  | .error e => failure s!"Failed to read {o.source}" e.message
  | .ok text =>
    match o.config with
    | .error e => failure "Invalid number format" e.text
    | .ok config =>
      let (_, results) := (Calculator.ofConfig config).evaluateDocument (.fresh now) text
      { exitCode := 0
        stdout := String.join ((Text.lines text).zipWith o.printed results)
        stderr := "" }

def programName : String := "tally"

def versionText : String := s!"{programName} 0.1.0\n"

def helpText : String :=
  String.join
    [ "Evaluate a calculator document line by line\n",
      "\n",
      s!"Usage: {programName} [OPTIONS] [FILE]\n",
      "\n",
      "Arguments:\n",
      "  [FILE]  Document to evaluate; reads stdin when omitted\n",
      "\n",
      "Options:\n",
      "      --decimal-separator <DECIMAL_SEPARATOR>\n",
      "          Decimal separator for input and output numbers [default: .]\n",
      "      --grouping-separator <GROUPING_SEPARATOR>\n",
      "          Digit grouping separator for output numbers\n",
      "  -s, --side-by-side\n",
      "          Print each input line next to its result\n",
      "      --log-level <LOG_LEVEL>\n",
      "          Log level used when RUST_LOG is not set [default: warn]\n",
      "  -h, --help\n",
      "          Print help\n",
      "  -V, --version\n",
      "          Print version\n" ]

/-- Text that is printed whatever the document is. -/
def printed (text : String) : Outcome where
  exitCode := 0
  stdout := text
  stderr := ""

def usageOutcome (e : UsageError) : Outcome where
  exitCode := 2
  stdout := ""
  stderr := s!"error: {e.message}\n"

/--
What the program leaves behind for its arguments. The document and the clock are read only where
there is something to evaluate, each in its own way.
-/
def respond {m : Type → Type} [Monad m] (document : Options → m (Except ReadFailure String))
    (clock : m Instant) (args : List String) : m Outcome :=
  match parse args with
  | .error e => pure (usageOutcome e)
  | .ok .help => pure (printed helpText)
  | .ok .version => pure (printed versionText)
  | .ok (.evaluate options) => do
    let text ← document options
    let now ← clock
    pure (run options now text)

/-- What the program leaves behind at a place and a time, with a text typed in. -/
def outcome (working : Place) (now : Instant) (input : Except ReadFailure String)
    (args : List String) : Outcome :=
  Id.run (respond (fun options => pure (options.document working input)) (pure now) args)

end LineCalc.CommandLine
