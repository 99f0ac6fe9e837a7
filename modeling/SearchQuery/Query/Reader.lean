import SearchQuery.Query.Filter
import SearchQuery.Query.Lexeme

/-!
# Reading a filter

A filter is read token by token.  Between two tokens the reader knows what it
waits for, what stands to the left of that in the innermost group, and the same
for every group around it.  Each token is taken or refused on the spot, so the
first token that no query can have at its place is the one that is reported.

Within one group the chains of `and` and `or` are joined as they are read: a
chain of `and` is closed by `or`, by a parenthesis or by the end, and both
chains associate to the left.
-/

namespace SearchQuery.Query

open Text

/-- What stands before the next operand in one group: the left side of a pending
`or`, and the left side of a pending `and`, which binds tighter. -/
structure Level where
  alternative : Option Filter
  conjunction : Option Filter
  deriving DecidableEq

namespace Level

/-- A group in which nothing has been read. -/
def empty : Level :=
  ⟨none, none⟩

/-- The filter joined to the left side of a connective, if there is one. -/
def joinLeft (connective : Connective) (left : Option Filter) (right : Filter) : Filter :=
  match left with
  | some left => .combine connective left right
  | none => right

/-- The connective that still wants its right-hand side. -/
def pending? (level : Level) : Option Connective :=
  match level.conjunction, level.alternative with
  | some _, _ => some .and
  | none, some _ => some .or
  | none, none => none

end Level

/-- What the reader waits for.  After an operand it holds the chain of `and`
that ends there. -/
inductive Expected
  | operand
  | comparison (field : String)
  | value (field : String) (comparison : Comparison)
  | connective (chain : Filter)
  deriving DecidableEq

/-- A reader between two tokens. -/
structure Reader where
  expected : Expected
  level : Level
  enclosing : List Level
  deriving DecidableEq

namespace Reader

/-- A reader before the first token. -/
def start : Reader :=
  ⟨.operand, .empty, []⟩

/-- The reader after a whole operand: a pending `and` takes it as its right side. -/
def afterOperand (level : Level) (enclosing : List Level) (operand : Filter) : Reader :=
  ⟨.connective (Level.joinLeft .and level.conjunction operand), ⟨level.alternative, none⟩,
    enclosing⟩

/-- What may follow an operand besides a connective: the end of the innermost
group, or of the query. -/
def closingTag (enclosing : List Level) : Tag :=
  match enclosing with
  | [] => .eof
  | _ :: _ => .closeParen

/-- Takes one token that is not blank. -/
def step (reader : Reader) (token : Token Tag) : Except Error Reader :=
  match reader.expected with
  | .operand =>
      match token.tag with
      | .openParen => .ok ⟨.operand, .empty, reader.level :: reader.enclosing⟩
      | .field => .ok ⟨.comparison token.lexeme, reader.level, reader.enclosing⟩
      | _ => .error (.unexpectedToken [.openParen, .field] token)
  | .comparison field =>
      match token.tag with
      | .comparison comparison => .ok ⟨.value field comparison, reader.level, reader.enclosing⟩
      | _ => .error (.unexpectedToken Tag.comparisons token)
  | .value field comparison =>
      match Operand.ofToken token with
      | .ok operand =>
          .ok (afterOperand reader.level reader.enclosing
            (.leaf ⟨field, comparison, operand⟩))
      | .error error => .error error
  | .connective chain =>
      match token.tag, reader.enclosing with
      | .connective .and, _ =>
          .ok ⟨.operand, ⟨reader.level.alternative, some chain⟩, reader.enclosing⟩
      | .connective .or, _ =>
          .ok ⟨.operand, ⟨some (Level.joinLeft .or reader.level.alternative chain), none⟩,
            reader.enclosing⟩
      | .closeParen, outer :: enclosing =>
          .ok (afterOperand outer enclosing (Level.joinLeft .or reader.level.alternative chain))
      | _, _ => .error (.unexpectedToken [closingTag reader.enclosing] token)

/-- The answer at the end of the query, which is at `position`. -/
def finish (reader : Reader) (position : Nat) : Except Error Filter :=
  match reader.expected with
  | .operand =>
      match reader.level.pending? with
      | some connective => .error (.missingRightHandSide connective position)
      | none => .error (.unexpectedEnd position)
  | .connective chain =>
      match reader.enclosing with
      | [] => .ok (Level.joinLeft .or reader.level.alternative chain)
      | _ :: _ => .error (.unexpectedEnd position)
  | _ => .error (.unexpectedEnd position)

/-- Takes all tokens of a query that ends at `position`. -/
def run (tokens : List (Token Tag)) (position : Nat) : Except Error Filter := do
  let reader ← tokens.foldlM step start
  reader.finish position

end Reader

namespace Filter

/-- The tokens that carry meaning. -/
def significant (tokens : List (Token Tag)) : List (Token Tag) :=
  tokens.filter (·.tag != .blank)

/-- Reads a filter.  A fault of the scan anywhere in the query comes before any
other error. -/
def read (query : String) : Except Error Filter := do
  let tokens ← tokens query
  if (significant tokens).isEmpty then throw .emptyExpression
  Reader.run (significant tokens) (width query.toList)

end Filter

end SearchQuery.Query
