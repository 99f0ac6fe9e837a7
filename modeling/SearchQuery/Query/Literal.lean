import SearchQuery.Number.Decimal
import SearchQuery.Query.Error
import SearchQuery.Text.Delimited

/-!
# Literals

A literal is the right-hand side of a comparison.  This module gives its kinds,
its equality, its text in a query, and how it is read from a token.

The text of a string leaves out every double quote, since a query has no way to
write one inside a string.  A float always shows a point if it is finite, so
that it is not taken for an integer.
-/

namespace SearchQuery.Query

open Number Text

/-- A value that a field can be compared with.  `invalid` keeps text that was
meant as a value and is none. -/
inductive Literal
  | string (text : String)
  | int (value : Int64)
  | float (value : Binary64)
  | bool (value : Bool)
  | regexp (pattern : String)
  | null
  | invalid (text : String)
  deriving DecidableEq

namespace Literal

/-- The name of the kind of a literal. -/
def kindName : Literal → String
  | string _ => "string"
  | int _ => "int"
  | float _ => "float"
  | bool _ => "bool"
  | regexp _ => "regexp"
  | null => "null"
  | invalid _ => "invalid"

/-- Whether the literal is a value. -/
def isValid : Literal → Bool
  | invalid _ => false
  | _ => true

/-- The text of a string or a pattern. -/
def text? : Literal → Option String
  | string text => some text
  | regexp pattern => some pattern
  | _ => none

/-- Equality of values: literals of different kinds differ, and floats are
compared as numbers. -/
def same : Literal → Literal → Bool
  | float x, float y => x.equal y
  | x, y => x == y

/-- The text without its double quotes. -/
def withoutQuotes (text : String) : String :=
  String.ofList (text.toList.filter (· != '"'))

/-- The digits of a float; a finite one always has a point. -/
def floatText (x : Binary64) : List Char :=
  if x.isFinite ∧ '.' ∉ x.plainText then x.plainText ++ ['.', '0'] else x.plainText

/-- The literal as it is written in a query. -/
def render : Literal → String
  | string text => "\"" ++ withoutQuotes text ++ "\""
  | int value => String.ofList (Integer.text value.toInt)
  | float value => String.ofList (floatText value)
  | bool true => "true"
  | bool false => "false"
  | regexp pattern => "/" ++ pattern ++ "/"
  | null => "null"
  | invalid text => text

/-- The truth value with this name. -/
def bool? (text : String) : Option Bool :=
  if text = "true" then some true else if text = "false" then some false else none

/-- The literal of this kind that the text spells, if it spells one. -/
def read? (kind : LiteralKind) (text : String) : Option Literal :=
  match kind with
  | .null => some null
  | .bool => (bool? text).map bool
  | .int => (Integer.read? text.toList).map int
  | .float => (Binary64.read? text.toList).map float
  | .string => some (string (Delimited.inner '"' text))
  | .regexp => some (regexp (Delimited.inner '/' text))

end Literal

/-- A literal in a query, with the token that it was read from if there is one. -/
structure Operand where
  literal : Literal
  source : Option (Token Tag)
  deriving DecidableEq

namespace Operand

/-- An operand that was not read from a query. -/
def ofLiteral (literal : Literal) : Operand :=
  ⟨literal, none⟩

/-- The operand that a token spells. -/
def ofToken (token : Token Tag) : Except Error Operand :=
  match token.tag with
  | .literal kind =>
      match Literal.read? kind token.lexeme with
      | some literal => .ok ⟨literal, some token⟩
      | none => .error (.invalidToken token)
  | .eof => .error (.unexpectedEnd token.span.start)
  | _ => .error (.unexpectedValue token)

end Operand

end SearchQuery.Query
