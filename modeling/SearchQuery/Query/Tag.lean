import SearchQuery.Query.Operator

/-!
# Tags of query tokens

Every token of a query has a tag: the operator it stands for, the kind of
literal it spells, or its role in the layout.  `error` marks text that belongs
to no other class.
-/

namespace SearchQuery.Query

/-- The kinds of literal that can be written in a query. -/
inductive LiteralKind
  | null
  | bool
  | int
  | float
  | string
  | regexp
  deriving DecidableEq

/-- The class of a piece of a query. -/
inductive Tag
  | eof
  | openParen
  | closeParen
  | connective (word : Connective)
  | comparison (sign : Comparison)
  | blank
  | field
  | literal (kind : LiteralKind)
  | error
  deriving DecidableEq

namespace Tag

/-- The name under which a tag appears in messages. -/
def name : Tag → String
  | eof => "EOF"
  | openParen => "("
  | closeParen => ")"
  | connective .and => "AND"
  | connective .or => "OR"
  | comparison sign => sign.symbol
  | blank => "WHITESPACE"
  | field => "FIELD"
  | literal .null => "NULL"
  | literal .bool => "BOOL"
  | literal .int => "INT"
  | literal .float => "FLOAT"
  | literal .string => "STRING"
  | literal .regexp => "REGEXP"
  | error => "ERROR"

/-- The tags of comparisons, in the order in which a message lists them. -/
def comparisons : List Tag :=
  [.equal, .notEqual, .like, .fuzzy, .greater, .atLeast, .atMost, .less].map comparison

/-- All tags. -/
def all : List Tag :=
  [eof, openParen, closeParen, connective .and, connective .or] ++ comparisons ++
    [blank, field, literal .int, literal .float, literal .bool, literal .string,
      literal .regexp, literal .null, error]

/-- The tag with this name. -/
def ofName? (text : String) : Option Tag :=
  all.find? (·.name == text)

@[simp]
theorem ofName?_name (tag : Tag) : ofName? tag.name = some tag := by
  cases tag with
  | connective word => cases word <;> rfl
  | comparison sign => cases sign <;> rfl
  | literal kind => cases kind <;> rfl
  | _ => rfl

/-- Whether a token with this tag compares a field with a value. -/
def isComparison : Tag → Bool
  | comparison _ => true
  | _ => false

/-- The tag of a word: five words are reserved, in lower case only, and every
other word names a field. -/
def ofWord (word : String) : Tag :=
  match word with
  | "and" => connective .and
  | "or" => connective .or
  | "true" => literal .bool
  | "false" => literal .bool
  | "null" => literal .null
  | _ => field

end Tag

end SearchQuery.Query
