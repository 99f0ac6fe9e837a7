/-!
# Delimited text

Phrases and patterns are written between two equal delimiters, and nothing in
between can be the delimiter: there is no escape.  Searching the closing
delimiter and taking the delimiters off are the two operations.
-/

namespace SearchQuery.Text.Delimited

/-- The number of characters up to and including the first `delimiter`, if there
is one. -/
def closing? (delimiter : Char) (rest : List Char) : Option Nat :=
  if delimiter ∈ rest then some ((rest.takeWhile (· != delimiter)).length + 1) else none

/-- The text without one `delimiter` at its start, if it has one there. -/
def dropOpening (delimiter : Char) : List Char → List Char
  | [] => []
  | c :: rest => if c = delimiter then rest else c :: rest

/-- The text without one `delimiter` at its end, if it has one there. -/
def dropClosing (delimiter : Char) (text : List Char) : List Char :=
  (dropOpening delimiter text.reverse).reverse

/-- The text between the delimiters.  A missing delimiter is no fault: text that
is still being typed has no closing one. -/
def inner (delimiter : Char) (lexeme : String) : String :=
  String.ofList (dropClosing delimiter (dropOpening delimiter lexeme.toList))

end SearchQuery.Text.Delimited
