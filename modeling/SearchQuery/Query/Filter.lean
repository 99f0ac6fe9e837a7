import SearchQuery.Query.Literal

/-!
# Filters

A filter is a tree of conditions joined by connectives.  Its text puts
parentheses round an operand exactly where the operand binds less tightly than
the connective above it, so a chain of one connective is written without any,
however its tree is nested.
-/

namespace SearchQuery.Query

/-- A single comparison of a field with a value. -/
structure Condition where
  field : String
  comparison : Comparison
  operand : Operand
  deriving DecidableEq

/-- A condition, or two filters joined by a connective. -/
inductive Filter
  | leaf (condition : Condition)
  | combine (connective : Connective) (left right : Filter)
  deriving DecidableEq

namespace Condition

/-- A condition on a value that was not read from a query. -/
def ofLiteral (field : String) (comparison : Comparison) (literal : Literal) : Condition :=
  ⟨field, comparison, .ofLiteral literal⟩

/-- Equality up to the tokens that the values were read from. -/
def same (first second : Condition) : Bool :=
  first.field == second.field && first.comparison == second.comparison &&
    first.operand.literal.same second.operand.literal

/-- The condition as it is written in a query. -/
def render (condition : Condition) : String :=
  condition.field ++ condition.comparison.symbol ++ condition.operand.literal.render

end Condition

namespace Filter

/-- Equality up to the tokens that the values were read from. -/
def same : Filter → Filter → Bool
  | leaf first, leaf second => first.same second
  | combine connective left right, combine connective' left' right' =>
      connective == connective' && left.same left' && right.same right'
  | _, _ => false

/-- How tightly the outermost operator binds. -/
def precedence : Filter → Nat
  | leaf condition => condition.comparison.precedence
  | combine connective _ _ => connective.precedence

/-- The conditions of a filter from left to right. -/
def conditions : Filter → List Condition
  | leaf condition => [condition]
  | combine _ left right => left.conditions ++ right.conditions

/-- The conditions on one field, from left to right. -/
def conditionsOn (filter : Filter) (field : String) : List Condition :=
  filter.conditions.filter (·.field == field)

/-- The filters joined from the left by one connective; none if there are no
filters. -/
def joinAll (connective : Connective) : List Filter → Option Filter
  | [] => none
  | first :: rest => some (rest.foldl (combine connective) first)

/-- Parentheses round the text, if they are needed. -/
def parenthesize (needed : Bool) (text : String) : String :=
  if needed then "(" ++ text ++ ")" else text

/-- The filter as it is written in a query. -/
def render : Filter → String
  | leaf condition => condition.render
  | combine connective left right =>
      parenthesize (left.precedence < connective.precedence) left.render ++
        (" " ++ connective.word ++ " ") ++
        parenthesize (right.precedence < connective.precedence) right.render

end Filter

end SearchQuery.Query
