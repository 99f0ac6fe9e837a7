import SearchQuery.Query.Tag
import SearchQuery.Text.Token

/-!
# Errors of the query language

An error names its cause.  The wording and the position are functions of the
cause and are given here once for all: reading, checking and composing queries
report through the same type.
-/

namespace SearchQuery.Query

open Text (Token)

/-- Why a text is not accepted as a filter. -/
inductive Error
  | emptyExpression
  | unknownEntity (entity : Char) (position : Nat)
  | unterminatedString (position : Nat)
  | unterminatedRegexp (position : Nat)
  | unexpectedToken (expected : List Tag) (found : Token Tag)
  | unexpectedValue (found : Token Tag)
  | missingRightHandSide (operator : Connective) (position : Nat)
  | unexpectedEnd (position : Nat)
  | invalidLiteral (lexeme : String) (position : Nat)
  | unsupportedOperator (operator : Comparison) (field : String)
  | unknownField (name : String) (suggestion : Option String)
  deriving DecidableEq

namespace Error

/-- The place in the text that the error is about; some errors are about no
place. -/
def position? : Error → Option Nat
  | emptyExpression => none
  | unknownEntity _ position => some position
  | unterminatedString position => some position
  | unterminatedRegexp position => some position
  | unexpectedToken _ found => some found.span.start
  | unexpectedValue found => some found.span.start
  | missingRightHandSide _ position => some position
  | unexpectedEnd position => some position
  | invalidLiteral _ position => some position
  | unsupportedOperator _ _ => none
  | unknownField _ _ => none

/-- The wording of an error. -/
def message : Error → String
  | emptyExpression => "filter expression is empty"
  | unknownEntity entity position =>
      "unknown entity '" ++ String.singleton entity ++ "' at position " ++ toString position
  | unterminatedString position =>
      "unterminated string starting at position " ++ toString position
  | unterminatedRegexp position =>
      "unterminated regexp starting at position " ++ toString position
  | unexpectedToken expected found => found.refusal Tag.name expected
  | unexpectedValue found =>
      "unexpected value " ++ found.tag.name ++ " ('" ++ found.lexeme ++ "') at position " ++
        toString found.span.start
  | missingRightHandSide operator position =>
      "missing right hand side of '" ++ operator.word ++ "' at position " ++ toString position
  | unexpectedEnd position => "unexpected end of expression at position " ++ toString position
  | invalidLiteral lexeme position =>
      "invalid literal '" ++ lexeme ++ "' at position " ++ toString position
  | unsupportedOperator operator field =>
      "operator '" ++ operator.symbol ++ "' is not supported for field '" ++ field ++ "'"
  | unknownField name none => "unknown field '" ++ name ++ "'"
  | unknownField name (some suggestion) =>
      "unknown field '" ++ name ++ "' (did you mean '" ++ suggestion ++ "'?)"

/-- The token has no literal value that its tag promises. -/
def invalidToken (token : Token Tag) : Error :=
  invalidLiteral token.lexeme token.span.start

end Error

end SearchQuery.Query
