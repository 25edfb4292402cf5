import LineCalc.CommandLine
import Std.Time.Zoned

/-!
# The program

Reads the arguments and the document, runs the command line and prints what it leaves behind.
-/

namespace LineCalc.CommandLine

/-- A document as text. -/
def decode (bytes : ByteArray) : Except ReadFailure String :=
  match String.fromUTF8? bytes with
  | some text => .ok text
  | none => .error .invalidText

/-- The failure to which the system gives a number, which may come with its sign changed. -/
def failureOfCode (code : UInt32) (details : String) : ReadFailure :=
  match min code.toNat (-code).toNat with
  | 2 => .notFound
  | 20 => .notDirectory
  | 21 => .isDirectory
  | 36 => .nameTooLong
  | n => .other s!"{details} (os error {n})"

/-- What the system reports about a file. -/
def failureOfSystem : IO.Error → ReadFailure
  | .noFileOrDirectory _ code details | .inappropriateType _ code details
  | .invalidArgument _ code details | .permissionDenied _ code details =>
    failureOfCode code details
  | e => .other (toString e)

/-- The document that is asked for. -/
def readDocument (o : Options) : IO (Except ReadFailure String) := do
  try
    match o.file with
    | some name => return decode (← IO.FS.readBinFile name)
    | none => return decode (← (← IO.getStdin).readBinToEnd)
  catch e => return .error (failureOfSystem e)

/-- The current time of the place where the program runs. -/
def readClock : IO Instant := do
  let now ← Std.Time.PlainDateTime.now
  let date := (Date.ofDayNumber? now.toEpochDay.val).getD .epoch
  return ⟨date, (TimeOfDay.ofNanos now.time.toNanoseconds.val).1⟩

end LineCalc.CommandLine

open LineCalc CommandLine in
def main (args : List String) : IO UInt32 := do
  let outcome ← respond readDocument readClock args
  IO.print outcome.stdout
  IO.eprint outcome.stderr
  return outcome.exitCode.toUInt32
