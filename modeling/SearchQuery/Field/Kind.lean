import SearchQuery.Query.Literal
import SearchQuery.Text.Blank

/-!
# Kinds of fields

The kind of a field says how the search index stores it.  It decides which
comparisons make sense and how a value that was typed as plain text is to be
understood.
-/

namespace SearchQuery.Field

open Number Text
open Query (Comparison Literal)

/-- How a field is stored. -/
inductive Kind
  | identifier
  | keyword
  | keywordList
  | date
  | text
  | int
  | float
  | unknown
  deriving DecidableEq

namespace Kind

/-- All kinds. -/
def all : List Kind :=
  [identifier, keyword, keywordList, date, text, int, float, unknown]

/-- The name of a kind. -/
def name : Kind → String
  | identifier => "IDENTIFIER"
  | keyword => "KEYWORD"
  | keywordList => "KEYWORD_LIST"
  | date => "DATE"
  | text => "TEXT"
  | int => "INT"
  | float => "FLOAT"
  | unknown => "UNKNOWN"

/-- The kind with exactly this name. -/
def ofName? (text : String) : Option Kind :=
  all.find? (·.name == text)

/-- The kind with this name, whatever the case of its letters. -/
def ofNameAnyCase? (text : String) : Option Kind :=
  all.find? fun kind => kind.name.toList.map Char.toLower == text.toList.map Char.toLower

@[simp]
theorem ofName?_name (kind : Kind) : ofName? kind.name = some kind := by
  cases kind <;> rfl

/-- The wording for a name that no kind has. -/
def unknownMessage (text : String) : String :=
  "unknown field kind '" ++ text ++ "'"

/-- The comparisons that fields of a kind support. -/
def comparisons : Kind → List Comparison
  | identifier => [.equal, .notEqual]
  | keyword => [.equal, .notEqual]
  | keywordList => [.equal, .notEqual]
  | date => [.equal, .notEqual]
  | text => [.equal, .notEqual, .like]
  | int => [.equal, .notEqual, .greater, .atLeast, .less, .atMost]
  | float => [.equal, .notEqual, .greater, .atLeast, .less, .atMost]
  | unknown => []

/-- The value that text typed for a field of a kind stands for.  Numbers may
have blanks round them; text that is no number is kept as an invalid value.  All
other kinds take the text as it is. -/
def value (kind : Kind) (raw : String) : Literal :=
  match kind with
  | int => ((Integer.read? (trim raw.toList)).map Literal.int).getD (.invalid raw)
  | float => ((Binary64.read? (trim raw.toList)).map Literal.float).getD (.invalid raw)
  | _ => .string raw

end Kind

end SearchQuery.Field
