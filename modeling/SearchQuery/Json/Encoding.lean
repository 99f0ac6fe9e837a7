import SearchQuery.Field.Catalogue
import SearchQuery.Json.Value
import SearchQuery.Query.SyntaxTree
import SearchQuery.Search.Term

/-!
# JSON forms of queries and terms

Every record is an object whose entries stand in the order of the parts of the
record.  An operand tells the kind of its literal; the token that spells it is
given only if there is one.  The nodes of a syntax tree say which of the three
shapes they have.
-/

namespace SearchQuery.Json.Value

open Text
open Query (Filter Leaf Literal Operand SyntaxTree)

/-- A token of a query. -/
def ofToken (token : Token Query.Tag) : Value :=
  object [("tag", string token.tag.name), ("lexeme", string token.lexeme),
    ("start", ofNat token.span.start), ("end", ofNat token.span.stop)]

/-- What a literal holds; nothing for `null`. -/
def payload? : Literal → Option Value
  | .string text => some (string text)
  | .int value => some (int value.toInt)
  | .float value => some (float value)
  | .bool value => some (bool value)
  | .regexp pattern => some (string pattern)
  | .null => none
  | .invalid text => some (string text)

/-- An operand of a comparison. -/
def ofOperand (operand : Operand) : Value :=
  object (("kind", string operand.literal.kindName) ::
    (ifGiven "value" id (payload? operand.literal) ++ ifGiven "token" ofToken operand.source))

/-- A filter. -/
def ofFilter : Filter → Value
  | .leaf condition =>
      object [("field", string condition.field), ("op", string condition.comparison.symbol),
        ("value", ofOperand condition.operand)]
  | .combine connective left right =>
      object [("lhs", ofFilter left), ("op", string connective.word), ("rhs", ofFilter right)]

/-- A leaf of a syntax tree. -/
def ofLeaf : Leaf → Value
  | .token role source =>
      object [("node", string "token"), ("kind", string role.name), ("token", ofToken source)]
  | .value operand => object [("node", string "value"), ("value", ofOperand operand)]

mutual

/-- A syntax tree. -/
def ofTree : SyntaxTree → Value
  | .leaf part => ofLeaf part
  | .node role children =>
      object [("node", string "inner"), ("kind", string role.name),
        ("children", array (ofTrees children))]

/-- Several syntax trees. -/
def ofTrees : List SyntaxTree → List Value
  | [] => []
  | child :: rest => ofTree child :: ofTrees rest

end

/-- A search term. -/
def ofTerm (term : Search.Term) : Value :=
  object [("span", object [("start", ofNat term.span.start), ("end", ofNat term.span.stop)]),
    ("field", string term.subject.name), ("value", string term.value),
    ("op", string term.comparison.symbol), ("tag", string term.tag.name)]

/-- A field. -/
def ofField (field : Field) : Value :=
  object [("name", string field.name), ("kind", string field.kind.name)]

end SearchQuery.Json.Value
