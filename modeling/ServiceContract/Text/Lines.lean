/-!
# Lines of a text

A line ends at a line feed, and a carriage return just before it belongs to the line end. A line
feed at the very end starts no further line.
-/

namespace ServiceContract.Text

/-- Drops one carriage return at the end of a line that is given in reverse. -/
def dropReturn : List Char → List Char
  | '\r' :: reversed => reversed
  | reversed => reversed

/-- The lines of the remaining characters, given the current line in reverse. -/
def linesFrom : List Char → List Char → List (List Char)
  | [], [] => []
  | [], reversed => [reversed.reverse]
  | '\n' :: rest, reversed => (dropReturn reversed).reverse :: linesFrom rest []
  | c :: rest, reversed => linesFrom rest (c :: reversed)

/-- The lines of a text, without their ends. -/
def lines (s : String) : List String := (linesFrom s.toList []).map String.ofList

end ServiceContract.Text
