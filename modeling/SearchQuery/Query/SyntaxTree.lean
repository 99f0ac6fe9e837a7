import SearchQuery.Query.Filter

/-!
# Syntax trees

A syntax tree keeps all of a query: its leaves, blanks and parentheses
included, hold the text piece by piece.  Every leaf has a role, by which an
editor can tell the parts of a query apart while it is typed.
-/

namespace SearchQuery.Query

open Text

/-- The part that a node plays in a query. -/
inductive Role
  | combination
  | connective
  | condition
  | comparison
  | field
  | value
  | blank
  | group
  | paren
  | parseError
  | unknown
  deriving DecidableEq

namespace Role

/-- All roles. -/
def all : List Role :=
  [combination, connective, condition, comparison, field, value, blank, group, paren,
    parseError, unknown]

/-- The name of a role in a printed tree. -/
def name : Role → String
  | combination => "bool_filter"
  | connective => "bool_op"
  | condition => "comp_filter"
  | comparison => "comp_op"
  | field => "field"
  | value => "value"
  | blank => "whitespace"
  | group => "group"
  | paren => "paren"
  | parseError => "parse_error"
  | unknown => "unknown"

/-- The name of a role in a listing of leaves. -/
def title : Role → String
  | combination => "BoolFilter"
  | connective => "BoolOp"
  | condition => "CompFilter"
  | comparison => "CompOp"
  | field => "Field"
  | value => "Value"
  | blank => "Whitespace"
  | group => "Group"
  | paren => "Paren"
  | parseError => "ParseError"
  | unknown => "Unknown"

/-- The role that a token plays by its tag alone. -/
def ofTag : Tag → Role
  | .blank => blank
  | .field => field
  | .connective _ => connective
  | .openParen => paren
  | .closeParen => paren
  | .literal _ => value
  | .comparison _ => comparison
  | .eof => unknown
  | .error => unknown

end Role

/-- A leaf holds a token, or a value with the token that spells it. -/
inductive Leaf
  | token (role : Role) (source : Token Tag)
  | value (operand : Operand)
  deriving DecidableEq

namespace Leaf

/-- The part that the leaf plays. -/
def role : Leaf → Role
  | token role _ => role
  | value _ => .value

/-- The text of the leaf.  A value that no token spells is written as in a
query. -/
def text : Leaf → String
  | token _ source => source.lexeme
  | value ⟨_, some source⟩ => source.lexeme
  | value ⟨literal, none⟩ => literal.render

/-- The place of the leaf, if it stands in a query. -/
def span? : Leaf → Option Span
  | token _ source => some source.span
  | value operand => operand.source.map Token.span

/-- Whether the leaf is well formed: no faulty text and no invalid value. -/
def isValid : Leaf → Bool
  | token _ source => source.tag != .error
  | value operand => operand.literal.isValid

/-- The leaf of a token by its tag alone. -/
def ofToken (source : Token Tag) : Leaf :=
  token (.ofTag source.tag) source

end Leaf

/-- A leaf, or a node with its parts in the order of the text. -/
inductive SyntaxTree
  | leaf (part : Leaf)
  | node (role : Role) (children : List SyntaxTree)

namespace SyntaxTree

mutual

/-- Two trees are the same if they are so part by part. -/
def decEq : (first second : SyntaxTree) → Decidable (first = second)
  | leaf part, leaf other => decidable_of_iff (part = other) (by simp)
  | node role children, node other others =>
      have := decEqOf children others
      decidable_of_iff (role = other ∧ children = others) (by simp)
  | leaf _, node _ _ | node _ _, leaf _ => .isFalse (by simp)

/-- Several trees are the same if they are so one by one. -/
def decEqOf : (first second : List SyntaxTree) → Decidable (first = second)
  | [], [] => .isTrue rfl
  | child :: rest, other :: others =>
      have := decEq child other
      have := decEqOf rest others
      decidable_of_iff (child = other ∧ rest = others) (by simp)
  | [], _ :: _ | _ :: _, [] => .isFalse (by simp)

end

instance : DecidableEq SyntaxTree :=
  decEq

/-- The part that the root plays. -/
def role : SyntaxTree → Role
  | leaf part => part.role
  | node role _ => role

mutual

/-- The leaves from left to right. -/
def leaves : SyntaxTree → List Leaf
  | leaf part => [part]
  | node _ children => leavesOf children

/-- The leaves of several trees from left to right. -/
def leavesOf : List SyntaxTree → List Leaf
  | [] => []
  | child :: rest => child.leaves ++ leavesOf rest

end

@[simp]
theorem leaves_leaf (part : Leaf) : (leaf part).leaves = [part] := by
  simp [leaves]

@[simp]
theorem leaves_node (role : Role) (children : List SyntaxTree) :
    (node role children).leaves = leavesOf children := by
  simp [leaves]

@[simp]
theorem leavesOf_nil : leavesOf [] = [] := by
  simp [leavesOf]

@[simp]
theorem leavesOf_cons (child : SyntaxTree) (rest : List SyntaxTree) :
    leavesOf (child :: rest) = child.leaves ++ leavesOf rest := by
  simp [leavesOf]

@[simp]
theorem leavesOf_append (children rest : List SyntaxTree) :
    leavesOf (children ++ rest) = leavesOf children ++ leavesOf rest := by
  induction children with
  | nil => simp
  | cons child children ih => simp [ih]

/-- The text of the tree, leaf by leaf. -/
def text (tree : SyntaxTree) : String :=
  String.join (tree.leaves.map Leaf.text)

/-- The place of the tree: the smallest span that covers its leaves. -/
def span? (tree : SyntaxTree) : Option Span :=
  match tree.leaves.filterMap Leaf.span? with
  | [] => none
  | first :: rest => some (rest.foldl Span.merge first)

/-- Whether the root is well formed.  Only leaves can be malformed. -/
def isValid : SyntaxTree → Bool
  | leaf part => part.isValid
  | node _ _ => true

/-- The malformed leaves from left to right. -/
def malformed (tree : SyntaxTree) : List Leaf :=
  tree.leaves.filter (!·.isValid)

/-- The tree with further parts at the end of its root.  A leaf takes none. -/
def append (parts : List SyntaxTree) : SyntaxTree → SyntaxTree
  | leaf part => .leaf part
  | node role children => .node role (children ++ parts)

end SyntaxTree

end SearchQuery.Query
