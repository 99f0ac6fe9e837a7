/-!
# Operators of the query language

A query compares fields with values and joins the comparisons with `and` and
`or`.  Precedence grows with the tightness of the binding: a comparison binds
tighter than `and`, and `and` tighter than `or`.
-/

namespace SearchQuery.Query

/-- How a field is compared with a value.  `like` matches a pattern and `fuzzy`
matches approximately. -/
inductive Comparison
  | equal
  | notEqual
  | like
  | fuzzy
  | less
  | atMost
  | greater
  | atLeast
  deriving DecidableEq

namespace Comparison

/-- All comparisons, in the order in which they are listed to a user. -/
def all : List Comparison :=
  [equal, notEqual, like, fuzzy, less, atMost, greater, atLeast]

/-- The sign of a comparison in a query. -/
def symbol : Comparison → String
  | equal => "="
  | notEqual => "!="
  | like => "~="
  | fuzzy => "~"
  | less => "<"
  | atMost => "<="
  | greater => ">"
  | atLeast => ">="

/-- The comparison with this sign. -/
def ofSymbol? (text : String) : Option Comparison :=
  all.find? (·.symbol == text)

@[simp]
theorem ofSymbol?_symbol (comparison : Comparison) :
    ofSymbol? comparison.symbol = some comparison := by
  cases comparison <;> rfl

/-- No operator binds tighter than a comparison. -/
def precedence (_ : Comparison) : Nat :=
  3

end Comparison

/-- How two filters are joined. -/
inductive Connective
  | and
  | or
  deriving DecidableEq

namespace Connective

/-- The word of a connective in a query. -/
def word : Connective → String
  | and => "and"
  | or => "or"

/-- `and` binds tighter than `or`. -/
def precedence : Connective → Nat
  | and => 2
  | or => 1

end Connective

end SearchQuery.Query
