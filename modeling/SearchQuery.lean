import SearchQuery.Text.Blank
import SearchQuery.Text.Span
import SearchQuery.Text.Cut
import SearchQuery.Text.Token
import SearchQuery.Text.Delimited
import SearchQuery.Text.EditDistance
import SearchQuery.Text.Shows
import SearchQuery.Text.Quoted
import SearchQuery.Text.Rounds
import SearchQuery.Text.Caret
import SearchQuery.Text.Style
import SearchQuery.Number.Integer
import SearchQuery.Number.Binary64
import SearchQuery.Number.Decimal
import SearchQuery.Query.Operator
import SearchQuery.Query.Tag
import SearchQuery.Query.Error
import SearchQuery.Query.Lexeme
import SearchQuery.Query.Scanner
import SearchQuery.Query.Literal
import SearchQuery.Query.Filter
import SearchQuery.Query.Reader
import SearchQuery.Query.SyntaxTree
import SearchQuery.Query.TreeReader
import SearchQuery.Search.Lexeme
import SearchQuery.Search.Term
import SearchQuery.Search.Reader
import SearchQuery.Search.PlainText
import SearchQuery.Search.Filter
import SearchQuery.Field.Kind
import SearchQuery.Field.Catalogue
import SearchQuery.Json.Value
import SearchQuery.Json.Text
import SearchQuery.Json.Encoding
import SearchQuery.Toml.Table
import SearchQuery.Toml.Quoted
import SearchQuery.Toml.Word
import SearchQuery.Toml.Document
import SearchQuery.Settings.Basic
import SearchQuery.Settings.Stored
import SearchQuery.Settings.Location
import SearchQuery.Command.Verb
import SearchQuery.Command.Invocation
import SearchQuery.Command.Report
import SearchQuery.Command.Check
import SearchQuery.Command.Listing
import SearchQuery.Command.Run
import SearchQuery.Proofs.Text.Tiling
import SearchQuery.Proofs.Text.Extent
import SearchQuery.Proofs.Text.Caret
import SearchQuery.Proofs.Text.EditDistance
import SearchQuery.Proofs.Text.Locality
import SearchQuery.Proofs.Text.Run
import SearchQuery.Proofs.Number.Rounding
import SearchQuery.Proofs.Number.Numeral
import SearchQuery.Proofs.Scan.Lexeme
import SearchQuery.Proofs.Scan.Faults
import SearchQuery.Proofs.Scan.Spelling
import SearchQuery.Proofs.Scan.Longest
import SearchQuery.Proofs.Scan.Closing
import SearchQuery.Proofs.Scan.Decomposition
import SearchQuery.Proofs.Scan.Resumption
import SearchQuery.Proofs.Grammar.Basic
import SearchQuery.Proofs.Grammar.Clauses
import SearchQuery.Proofs.Grammar.Reader
import SearchQuery.Proofs.Tree.Leaves
import SearchQuery.Proofs.Tree.Lossless
import SearchQuery.Proofs.Tree.Outline
import SearchQuery.Proofs.Tree.Failure
import SearchQuery.Proofs.Tree.Typing
import SearchQuery.Proofs.Tree.Completion
import SearchQuery.Proofs.Tree.Erasure
import SearchQuery.Proofs.Tree.Agreement
import SearchQuery.Proofs.Tree.ErrorAgreement
import SearchQuery.Proofs.Tree.Tolerance
import SearchQuery.Proofs.Tree.Caret
import SearchQuery.Proofs.Canonical.Literal
import SearchQuery.Proofs.Canonical.Nesting
import SearchQuery.Proofs.Canonical.Content
import SearchQuery.Proofs.Canonical.Words
import SearchQuery.Proofs.Canonical.RoundTrip
import SearchQuery.Proofs.Canonical.Parentheses
import SearchQuery.Proofs.Canonical.Accepted
import SearchQuery.Proofs.Canonical.Overflow
import SearchQuery.Proofs.Canonical.OneToken
import SearchQuery.Proofs.Layout.Scan
import SearchQuery.Proofs.Layout.Reader
import SearchQuery.Proofs.Search.Spelling
import SearchQuery.Proofs.Search.Longest
import SearchQuery.Proofs.Search.Decomposition
import SearchQuery.Proofs.Search.Words
import SearchQuery.Proofs.Search.Terms
import SearchQuery.Proofs.Search.Moved
import SearchQuery.Proofs.Search.Steps
import SearchQuery.Proofs.Search.Typing
import SearchQuery.Proofs.Search.Refusal
import SearchQuery.Proofs.Search.Places
import SearchQuery.Proofs.Search.Query
import SearchQuery.Proofs.Search.Pieces
import SearchQuery.Proofs.Search.PlainText
import SearchQuery.Proofs.Search.Recovery
import SearchQuery.Proofs.Search.Sigils
import SearchQuery.Proofs.Field.Compose
import SearchQuery.Proofs.Field.Suggestion
import SearchQuery.Main
