import SearchQuery.Query.Lexeme
import SearchQuery.Query.SyntaxTree

/-!
# Reading a syntax tree

The tree of a query is read lexeme by lexeme, as its filter is, but nothing is
thrown away and faults are borne where a value is expected: there any faulty
text or literal without value becomes an invalid value, and reading goes on.
Elsewhere a fault or a misplaced token ends the reading with an error that
names the token.  If that token is the mark at the end of the query, the query
is not wrong but unfinished.

Blanks before an operand belong to the operand, except after a connective,
where they belong to the combination; blanks after the last operand belong to
the root.
-/

namespace SearchQuery.Query

open Text

/-- Why no tree was read, and the token at which reading stopped. -/
structure TreeError where
  reason : Error
  cause : Token Tag
  deriving DecidableEq

namespace TreeError

/-- Whether the query only needs to be typed on. -/
def isIncomplete (error : TreeError) : Bool :=
  error.cause.tag == .eof

/-- The place at which reading stopped. -/
def position (error : TreeError) : Nat :=
  error.cause.span.start

/-- The wording of the error. -/
def message (error : TreeError) : String :=
  error.reason.message

end TreeError

/-- What has been read of one group before the next operand: the parts up to its
parenthesis, the parts of a combination whose `or` waits for its right side, and
the same for `and`. -/
structure TreeLevel where
  opening : List SyntaxTree
  alternative : List SyntaxTree
  conjunction : List SyntaxTree

namespace TreeLevel

/-- The level outside all groups, in which nothing has been read. -/
def empty : TreeLevel :=
  ⟨[], [], []⟩

/-- The parts joined to a last one; a single part stays as it is. -/
def join (parts : List SyntaxTree) (last : SyntaxTree) : SyntaxTree :=
  match parts with
  | [] => last
  | _ :: _ => .node .combination (parts ++ [last])

/-- The connective that still wants its right-hand side. -/
def pending? (level : TreeLevel) : Option Connective :=
  match level.conjunction, level.alternative with
  | _ :: _, _ => some .and
  | [], _ :: _ => some .or
  | [], [] => none

/-- Gives the blanks before an operand to the pending combination, or, if there
is none, to the operand. -/
def settle (level : TreeLevel) (blanks : List SyntaxTree) : TreeLevel × List SyntaxTree :=
  match level.conjunction, level.alternative with
  | _ :: _, _ => (⟨level.opening, level.alternative, level.conjunction ++ blanks⟩, [])
  | [], _ :: _ => (⟨level.opening, level.alternative ++ blanks, []⟩, [])
  | [], [] => (level, blanks)

end TreeLevel

/-- What the reader waits for, with the parts that it has read towards it. -/
inductive TreeExpected
  | operand (blanks : List SyntaxTree)
  | comparison (parts : List SyntaxTree)
  | value (parts : List SyntaxTree)
  | connective (chain : SyntaxTree) (blanks : List SyntaxTree)

/-- A reader of trees between two lexemes. -/
structure TreeReader where
  expected : TreeExpected
  level : TreeLevel
  enclosing : List TreeLevel

namespace TreeReader

/-- A reader before the first lexeme. -/
def start : TreeReader :=
  ⟨.operand [], .empty, []⟩

/-- Keeps a blank among the parts that are being read. -/
def keepBlank (expected : TreeExpected) (blank : SyntaxTree) : TreeExpected :=
  match expected with
  | .operand blanks => .operand (blanks ++ [blank])
  | .comparison parts => .comparison (parts ++ [blank])
  | .value parts => .value (parts ++ [blank])
  | .connective chain blanks => .connective chain (blanks ++ [blank])

/-- The error at a lexeme that cannot stand here: its own fault if it has one. -/
def refuse (lexeme : Lexeme) (expected : List Tag) : TreeError :=
  ⟨lexeme.error.getD (.unexpectedToken expected lexeme.token), lexeme.token⟩

/-- The value that a token spells; faulty text and literals without value are
borne as invalid values. -/
def operand? (token : Token Tag) : Option Operand :=
  match token.tag with
  | .literal kind =>
      some ⟨(Literal.read? kind token.lexeme).getD (.invalid token.lexeme), some token⟩
  | .error => some ⟨.invalid token.lexeme, some token⟩
  | _ => none

/-- The reader after a whole operand: a pending `and` takes it as its right side. -/
def afterOperand (level : TreeLevel) (enclosing : List TreeLevel) (operand : SyntaxTree) :
    TreeReader :=
  ⟨.connective (TreeLevel.join level.conjunction operand) [],
    ⟨level.opening, level.alternative, []⟩, enclosing⟩

/-- What may follow an operand besides a connective. -/
def closingTag (enclosing : List TreeLevel) : Tag :=
  match enclosing with
  | [] => .eof
  | _ :: _ => .closeParen

/-- Takes one lexeme that is not blank. -/
def stepSignificant (reader : TreeReader) (lexeme : Lexeme) : Except TreeError TreeReader :=
  let token := lexeme.token
  let leaf : SyntaxTree := .leaf (.ofToken token)
  match reader.expected with
  | .operand blanks =>
      let (level, blanks) := reader.level.settle blanks
      match token.tag with
      | .openParen => .ok ⟨.operand [], ⟨blanks ++ [leaf], [], []⟩, level :: reader.enclosing⟩
      | .field => .ok ⟨.comparison (blanks ++ [leaf]), level, reader.enclosing⟩
      | _ => .error (refuse lexeme [.openParen, .field])
  | .comparison parts =>
      match token.tag with
      | .comparison _ => .ok ⟨.value (parts ++ [leaf]), reader.level, reader.enclosing⟩
      | _ => .error (refuse lexeme Tag.comparisons)
  | .value parts =>
      match operand? token with
      | some operand =>
          .ok (afterOperand reader.level reader.enclosing
            (.node .condition (parts ++ [.leaf (.value operand)])))
      | none => .error ⟨.unexpectedValue token, token⟩
  | .connective chain blanks =>
      let level := reader.level
      let whole := TreeLevel.join level.alternative chain
      match token.tag, reader.enclosing with
      | .connective .and, _ =>
          .ok ⟨.operand [], ⟨level.opening, level.alternative, chain :: blanks ++ [leaf]⟩,
            reader.enclosing⟩
      | .connective .or, _ =>
          .ok ⟨.operand [], ⟨level.opening, whole :: blanks ++ [leaf], []⟩, reader.enclosing⟩
      | .closeParen, outer :: enclosing =>
          .ok (afterOperand outer enclosing
            (.node .group (level.opening ++ whole :: blanks ++ [leaf])))
      | _, _ => .error (refuse lexeme [closingTag reader.enclosing])

/-- Takes one lexeme. -/
def step (reader : TreeReader) (lexeme : Lexeme) : Except TreeError TreeReader :=
  if lexeme.token.tag = .blank then
    .ok { reader with
      expected := keepBlank reader.expected (.leaf (.ofToken lexeme.token)) }
  else reader.stepSignificant lexeme

/-- The answer at the mark that ends the query. -/
def finish (reader : TreeReader) (mark : Token Tag) : Except TreeError SyntaxTree :=
  let unfinished : TreeError := ⟨.unexpectedEnd mark.span.start, mark⟩
  match reader.expected with
  | .operand _ =>
      match reader.level.pending? with
      | some connective => .error ⟨.missingRightHandSide connective mark.span.start, mark⟩
      | none => .error unfinished
  | .connective chain blanks =>
      match reader.enclosing with
      | [] => .ok ((TreeLevel.join reader.level.alternative chain).append blanks)
      | _ :: _ => .error unfinished
  | _ => .error unfinished

end TreeReader

namespace SyntaxTree

/-- Reads the tree of a query. -/
def read (query : String) : Except TreeError SyntaxTree := do
  let reader ← (lexemes query).foldlM TreeReader.step TreeReader.start
  reader.finish (endMark query)

/-- All lexemes of a query side by side under one root. -/
def flat (query : String) : SyntaxTree :=
  .node .parseError ((lexemes query).map fun lexeme => .leaf (.ofToken lexeme.token))

/-- Reads the tree of a query; where that fails, the flat tree stands in and the
error is given with it. -/
def readLossy (query : String) : SyntaxTree × Option TreeError :=
  match read query with
  | .ok tree => (tree, none)
  | .error error => (flat query, some error)

end SyntaxTree

end SearchQuery.Query
