import LineCalc.Assoc
import LineCalc.Value

/-!
# Environments

Lines are evaluated in the order of the document, and later lines see what earlier ones left: the
variables they assigned and the results they recorded. Nothing is taken back; a line that fails
records its failure.
-/

namespace LineCalc

/--
What lines have left behind, and the time at which they are evaluated. The time is that of a clock
that stands still: whatever reads it between two changes of the environment's clock gets the same
instant, where a clock that goes on could give a later one at each use.
-/
structure Environment where
  bindings : Assoc Value := []
  /-- The results of the lines so far, the latest first. -/
  latestFirst : List Value := []
  now : Instant
  deriving DecidableEq

namespace Environment

def fresh (now : Instant) : Environment := { now }

/-- The results of the lines so far, in the order of the lines. -/
def lines (env : Environment) : List Value :=
  env.latestFirst.reverse

/-- The value kept under a name. -/
def lookup? (env : Environment) (name : String) : Option Value :=
  env.bindings.find? name

/-- The environment with a value kept under a name. -/
def assign (env : Environment) (name : String) (value : Value) : Environment :=
  { env with bindings := env.bindings.put name value }

/-- The environment with the result of one more line. -/
def record (env : Environment) (value : Value) : Environment :=
  { env with latestFirst := value :: env.latestFirst }

theorem reverse_lines (env : Environment) : env.lines.reverse = env.latestFirst :=
  List.reverse_reverse _

@[simp] theorem lines_record (env : Environment) (value : Value) :
    (env.record value).lines = env.lines ++ [value] := by
  simp [lines, record]

@[simp] theorem lines_assign (env : Environment) (name : String) (value : Value) :
    (env.assign name value).lines = env.lines := rfl

@[simp] theorem lookup?_assign (env : Environment) (name other : String) (value : Value) :
    (env.assign name value).lookup? other =
      if name = other then some value else env.lookup? other :=
  Assoc.find?_put _ _ _ _

@[simp] theorem lookup?_record (env : Environment) (value : Value) (name : String) :
    (env.record value).lookup? name = env.lookup? name := rfl

end Environment

end LineCalc
