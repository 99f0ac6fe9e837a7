import SearchQuery.Text.Cut

/-!
# Tokens

A token is a piece of text with its tag and its place.  Two languages are
scanned in this library, filter queries and search text; they share the shape
of a token and differ in its tags.
-/

namespace SearchQuery.Text

/-- A tagged piece of text.  `lexeme` is the text as it was written. -/
structure Token (Tag : Type) where
  tag : Tag
  lexeme : String
  span : Span
  deriving DecidableEq

namespace Token

variable {Tag : Type}

/-- The token that starts at `start` and holds exactly `text`. -/
def ofText (tag : Tag) (start : Nat) (text : List Char) : Token Tag :=
  ⟨tag, String.ofList text, ⟨start, start + width text⟩⟩

/-- The empty token that marks a position. -/
def mark (tag : Tag) (position : Nat) : Token Tag :=
  ofText tag position []

/-- The wording for a token that stands where only tokens with certain tags may
stand. -/
def refusal (name : Tag → String) (expected : List Tag) (found : Token Tag) : String :=
  "expected one of [" ++ String.intercalate ", " (expected.map name) ++ "], found " ++
    name found.tag ++ " ('" ++ found.lexeme ++ "') at position " ++ toString found.span.start

end Token

end SearchQuery.Text
