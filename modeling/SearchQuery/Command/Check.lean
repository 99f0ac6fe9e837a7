import SearchQuery.Command.Report
import SearchQuery.Json.Encoding
import SearchQuery.Text.Caret
import SearchQuery.Text.Quoted
import SearchQuery.Text.Style

/-!
# Checking a query

A query is checked as it is typed: all of it is shown, with a style for every
role, malformed values are listed, and a query that is not finished is no
failure.  A query that no further typing can mend is shown with a caret below the
token at which reading stopped.
-/

namespace SearchQuery.Command

open Json (Value)
open Query (Leaf Role SyntaxTree TreeError)
open Text (Style)

/-- The style of a leaf. -/
def leafStyle (leaf : Leaf) : Style :=
  if !leaf.isValid then [.underlined, .red]
  else
    match leaf.role with
    | .field => [.cyan]
    | .comparison => [.yellow]
    | .connective => [.bold, .magenta]
    | .value => [.green]
    | .paren => [.dimmed]
    | .unknown => [.red]
    | _ => []

/-- The text of a tree with the styles of its leaves. -/
def paintTree (colors : Bool) (tree : SyntaxTree) : String :=
  String.join (tree.leaves.map fun leaf => (leafStyle leaf).paintIf colors leaf.text)

/-- The place of a leaf, or the start of the text. -/
def leafPosition (leaf : Leaf) : Nat :=
  match leaf.span? with
  | some span => span.start
  | none => 0

/-- What is found about a query: its tree, and why it was not read in full. -/
structure Findings where
  query : String
  tree : SyntaxTree
  error : Option TreeError

namespace Findings

/-- What is found about this query. -/
def ofQuery (query : String) : Findings :=
  let (tree, error) := SyntaxTree.readLossy query
  ⟨query, tree, error⟩

/-- Whether the query only needs to be typed on. -/
def isIncomplete (findings : Findings) : Bool :=
  match findings.error with
  | some error => error.isIncomplete
  | none => false

/-- The error that no further typing can mend. -/
def hardError? (findings : Findings) : Option TreeError :=
  findings.error.filter (!·.isIncomplete)

/-- Whether the query can be run as it is. -/
def isValid (findings : Findings) : Bool :=
  findings.error.isNone && findings.tree.malformed.isEmpty

/-- The JSON form of a malformed leaf. -/
def malformedJson (leaf : Leaf) : Value :=
  .object [("text", .string leaf.text), ("position", .ofNat (leafPosition leaf))]

/-- The JSON form of the findings. -/
def json (findings : Findings) : Value :=
  .object ([("valid", .bool findings.isValid), ("incomplete", .bool findings.isIncomplete),
      ("invalid_values", .ofList malformedJson findings.tree.malformed)] ++
    Value.ifGiven "error" (fun error => .string (TreeError.message error)) findings.error ++
    Value.ifGiven "position" (fun error => .ofNat (TreeError.position error)) findings.error ++
    [("tree", .ofTree findings.tree)])

/-- The query, or the line of it with the fault. -/
def picture (findings : Findings) (colors : Bool) : String :=
  match findings.hardError? with
  | some error => Text.caret findings.query error.position
  | none => paintTree colors findings.tree

/-- The line for a malformed leaf. -/
def malformedLine (leaf : Leaf) : String :=
  "malformed '" ++ leaf.text ++ "' at " ++ toString (leafPosition leaf) ++ "\n"

/-- The findings as text. -/
def text (findings : Findings) (colors : Bool) : String :=
  findings.picture colors ++ "\n" ++
    String.join (findings.tree.malformed.map malformedLine) ++
    (if findings.isIncomplete then "incomplete query\n" else "")

/-- The leaves one by one. -/
def listing (findings : Findings) : String :=
  String.join (findings.tree.leaves.map fun leaf =>
    leaf.role.title ++ " " ++ Text.quoted leaf.text ++ "\n")

/-- The outcome of checking. -/
def outcome (findings : Findings) (options : Options) (colors : Bool) : Outcome :=
  { Outcome.ofAnswer options findings.json (findings.text colors) with
    notes := if options.verbose && !options.quiet && !options.json then findings.listing
      else ""
    failure := findings.hardError?.map .tree }

end Findings

end SearchQuery.Command
