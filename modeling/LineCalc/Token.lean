/-!
# Tokens

A line is read as a sequence of tokens: literals, names of the vocabulary, free words, and the
characters that structure the line. A token keeps its text and where it starts.
-/

namespace LineCalc

/-- The sorts of tokens. -/
inductive TokenKind where
  | number
  | date
  | time
  | operator
  | function
  | aggregator
  | unit
  /-- Any other word. -/
  | identifier
  | openParen
  | closeParen
  /-- Separates the arguments of a function. -/
  | semicolon
  /-- Gives the word before it a value. -/
  | assignment
  /-- A line that is not read. -/
  | comment
  deriving Repr, DecidableEq

/-- A piece of a line. -/
structure Token where
  kind : TokenKind
  text : String
  /-- Where the text starts in the line, in bytes of UTF-8. -/
  offset : Nat
  deriving Repr, DecidableEq

end LineCalc
