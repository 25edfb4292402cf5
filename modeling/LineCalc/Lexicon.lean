import LineCalc.Config.Basic
import LineCalc.Token

/-!
# The lexicon of a configuration

What a line is read by: the names of the vocabulary, each class with its longest names first, the
characters that end a word, and the decimal separator. At any place of a line the recognizers are
tried in a fixed order, and the first one that finds something at the start of the text decides:
comment, structure, date, time, number, operator, function, aggregator, unit, and at last free word.
-/

namespace LineCalc

open Text

/-- The names and characters that lines are read by. -/
structure Lexicon where
  operators : List (List Char)
  functions : List (List Char)
  aggregators : List (List Char)
  units : List (List Char)
  /-- Characters that end a word, besides white space. -/
  delimiters : List Char
  /-- Stands between the integer part and the fraction of a number. -/
  decimalSeparator : Char
  deriving Repr

namespace Lexicon

/-! ## Names in order -/

/-- Whether a name is at most another one in the order of code points. -/
def notAfter : List Char → List Char → Bool
  | [], _ => true
  | _ :: _, [] => false
  | a :: as, b :: bs => a.toNat < b.toNat || (a == b && notAfter as bs)

/-- Longer names come first, names of one length in the order of code points. -/
def longestFirst (a b : List Char) : Bool :=
  b.length < a.length || (a.length == b.length && notAfter a b)

/-- Names in lowercase, longest first and once each. -/
def arrange (names : List String) : List (List Char) :=
  dropRepeats (· == ·) (sorted longestFirst (names.map fun name => lower name.toList))

/-- Whether a character of an operator symbol ends a word. -/
def endsWord (c : Char) : Bool :=
  !isAlphanumeric c && !isBlank c

def ofConfig (config : Config) : Lexicon where
  operators := arrange config.operatorSymbols
  functions := arrange config.functions.names
  aggregators := arrange config.aggregators.names
  units := arrange config.units.names
  delimiters :=
    '(' :: ')' :: ';' :: (config.operatorSymbols.flatMap String.toList).filter endsWord
  decimalSeparator := config.format.decimalSeparator

/-! ## Literals -/

/-- Whether the text starts with characters that pass the given tests one by one. -/
def hasShape : List (Char → Bool) → List Char → Bool
  | [], _ => true
  | _ :: _, [] => false
  | test :: tests, c :: rest => test c && hasShape tests rest

/-- A date: four digits, two digits and two digits with hyphens between them. -/
def dateLength? (cs : List Char) : Option Nat :=
  if hasShape [isDigit, isDigit, isDigit, isDigit, (· == '-'), isDigit, isDigit, (· == '-'),
    isDigit, isDigit] cs then some 10 else none

/-- The length of the seconds that may follow hour and minute. -/
def secondsLength (cs : List Char) : Nat :=
  if hasShape [(· == ':'), isDigit, isDigit] cs then 3 else 0

/-- A time: one or two digits, a colon and two digits, and perhaps a colon and two more. -/
def timeLength? (cs : List Char) : Option Nat :=
  if hasShape [isDigit, isDigit, (· == ':'), isDigit, isDigit] cs then
    some (5 + secondsLength (cs.drop 5))
  else if hasShape [isDigit, (· == ':'), isDigit, isDigit] cs then
    some (4 + secondsLength (cs.drop 4))
  else none

/-- How many digits the text starts with. -/
def digitCount (cs : List Char) : Nat :=
  (cs.takeWhile isDigit).length

/-- The length of a separator with at least one digit after it, zero if there is none. -/
def fractionLength (separator : Char) : List Char → Nat
  | [] => 0
  | c :: rest => if c = separator ∧ 0 < digitCount rest then 1 + digitCount rest else 0

/-- A number: digits with or without a fraction, or a fraction alone. -/
def numberLength? (separator : Char) (cs : List Char) : Option Nat :=
  let length := digitCount cs + fractionLength separator (cs.drop (digitCount cs))
  if length = 0 then none else some length

/-- A free word: letters and underscores. -/
def wordLength? (cs : List Char) : Option Nat :=
  let length := (cs.takeWhile fun c => isLetter c || c == '_').length
  if length = 0 then none else some length

/-! ## Structure -/

/-- What a character means for the structure of a line. -/
def structureKind? (c : Char) : Option TokenKind :=
  if c = ':' ∨ c = '=' then some .assignment
  else if c = '(' then some .openParen
  else if c = ')' then some .closeParen
  else if c = ';' then some .semicolon
  else none

/-! ## Names -/

/-- Whether a word may end before the text: at its end, at white space or at a delimiter. -/
def isBoundary (lx : Lexicon) : List Char → Bool
  | [] => true
  | c :: _ => isBlank c || lx.delimiters.contains c

/--
Whether a name stands at the start of the text: as many characters as the name has become the name
in lowercase, and a word ends after them if the name is one.
-/
def admits (lx : Lexicon) (cs name : List Char) : Bool :=
  let head := cs.take name.length
  head.length == name.length && lower head == name &&
    (!name.all isAlphabetic || lx.isBoundary (cs.drop name.length))

/-- The length of the longest of the names that stands at the start of the text. -/
def nameLength? (lx : Lexicon) (names : List (List Char)) (cs : List Char) : Option Nat :=
  (names.find? (lx.admits cs)).map List.length

/-! ## The first token -/

/-- A comment takes the whole line. -/
def comment? (atStart : Bool) : List Char → Option (TokenKind × Nat)
  | [] => none
  | c :: rest => if atStart && c == '#' then some (.comment, rest.length + 1) else none

/-- A character of the structure of a line. -/
def structure? : List Char → Option (TokenKind × Nat)
  | [] => none
  | c :: _ => (structureKind? c).map (·, 1)

/-- The recognizers in the order in which they are tried. -/
def recognizers (lx : Lexicon) (atStart : Bool) : List (List Char → Option (TokenKind × Nat)) :=
  [ comment? atStart,
    structure?,
    fun cs => (dateLength? cs).map (.date, ·),
    fun cs => (timeLength? cs).map (.time, ·),
    fun cs => (numberLength? lx.decimalSeparator cs).map (.number, ·),
    fun cs => (lx.nameLength? lx.operators cs).map (.operator, ·),
    fun cs => (lx.nameLength? lx.functions cs).map (.function, ·),
    fun cs => (lx.nameLength? lx.aggregators cs).map (.aggregator, ·),
    fun cs => (lx.nameLength? lx.units cs).map (.unit, ·),
    fun cs => (wordLength? cs).map (.identifier, ·) ]

/-- The token that a text without white space before it starts with: its kind and its length. -/
def next? (lx : Lexicon) (atStart : Bool) (cs : List Char) : Option (TokenKind × Nat) :=
  (lx.recognizers atStart).findSome? (· cs)

/-! ## All tokens -/

/-- The number of bytes of a text in UTF-8. -/
def byteLength : List Char → Nat
  | [] => 0
  | c :: rest => c.utf8Size + byteLength rest

/--
Reads on at a byte offset, with the tokens so far, the latest first, until nothing is left or
nothing is recognized: the tokens, and what is left in the second case. A name without characters
leaves the reading where it was and is found there again, so that the reading does not end and
there is no result.
-/
def readFrom? (lx : Lexicon) (offset : Nat) (reversed : List Token) (cs : List Char) :
    Option (List Token × Option (List Char)) :=
  match trimStart cs with
  | [] => some (reversed.reverse, none)
  | c :: rest =>
    match lx.next? reversed.isEmpty (c :: rest) with
    | none => some (reversed.reverse, some (c :: rest))
    | some (kind, length) =>
      let start := offset + byteLength (cs.takeWhile isBlank)
      let text := (c :: rest).take length
      lx |>.readFrom? (start + byteLength text) (⟨kind, String.ofList text, start⟩ :: reversed)
        ((c :: rest).drop length)
partial_fixpoint

end Lexicon

/-- A line that cannot be read to its end. -/
structure LexError where
  unread : String
  tokens : List Token
  deriving Repr, DecidableEq

namespace LexError

/-- What is said about a line that cannot be read. -/
def message (e : LexError) : String :=
  s!"Unrecognized input: '{e.unread}'"

/-- The message under the name of its category. -/
def text (e : LexError) : String :=
  "Lex error: " ++ e.message

end LexError

namespace Lexicon

/-- Reads a line to its end, or to where it cannot be read; there is no result without an end. -/
def read? (lx : Lexicon) (line : String) : Option (Except LexError (List Token)) :=
  match lx.readFrom? 0 [] line.toList with
  | some (tokens, none) => some (.ok tokens)
  | some (tokens, some unread) => some (.error ⟨String.ofList unread, tokens⟩)
  | none => none

/--
The tokens of a line whose reading ends. On any other line this does not return either, and the
value that stands for it here means nothing: what is said of such lines is said of `read?`.
-/
def lex (lx : Lexicon) (line : String) : Except LexError (List Token) :=
  (lx.read? line).getD (.error ⟨line, []⟩)

end Lexicon

end LineCalc
