/-!
# The lines of a document

A line ends at a newline, and a carriage return just before it is part of the ending. A text
without a newline at its end has a last line of its own unless nothing follows the last newline.
-/

namespace LineCalc.Text

/-- A line, given last character first, without the carriage return that ends it. -/
def dropReturn : List Char → List Char
  | '\r' :: line => line
  | line => line

/-- The lines of a text, of whose first line `line` holds what was passed, last character first. -/
def linesAfter (line : List Char) : List Char → List (List Char)
  | [] => if line.isEmpty then [] else [line.reverse]
  | c :: rest =>
    if c = '\n' then (dropReturn line).reverse :: linesAfter [] rest
    else linesAfter (c :: line) rest

/-- The lines of a document. -/
def lines (text : String) : List String :=
  (linesAfter [] text.toList).map String.ofList

end LineCalc.Text
