import SearchQuery.Text.Blank
import SearchQuery.Text.Delimited
import SearchQuery.Text.Token

/-!
# Scanning search text

Search text is what a person types into a search box: words, "exact phrases",
/patterns/, `@actors` and `~publications`.  It is cut by longest match.  A
phrase or a pattern that is not closed runs to the end of the text, so text can
be scanned while it is typed, and the only text that is no token is a control
character.
-/

namespace SearchQuery.Search

open Text

/-- The class of a piece of search text. -/
inductive Tag
  | eof
  | mention
  | publication
  | quoted
  | word
  | regexp
  | blank
  | error
  deriving DecidableEq

namespace Tag

/-- The name under which a tag appears in messages. -/
def name : Tag → String
  | eof => "EOF"
  | mention => "@"
  | publication => "~"
  | quoted => "QUOTED_STRING"
  | word => "WORD"
  | regexp => "REGEXP"
  | blank => "WHITESPACE"
  | error => "ERROR"

/-- All tags. -/
def all : List Tag :=
  [eof, mention, publication, quoted, word, regexp, blank, error]

/-- The tag with this name. -/
def ofName? (text : String) : Option Tag :=
  all.find? (·.name == text)

@[simp]
theorem ofName?_name (tag : Tag) : ofName? tag.name = some tag := by
  cases tag <;> rfl

end Tag

/-- The characters that can go on a word.  A slash can, although no word starts
with one. -/
def isWordPart (c : Char) : Bool :=
  !isBlank c && !isControl c && c != '@' && c != '~' && c != '"'

/-- The first piece of the text `c :: rest`: its tag and the number of characters
that it takes after the first. -/
def head (c : Char) (rest : List Char) : Tag × Nat :=
  if c = '@' then (.mention, 0)
  else if c = '~' then (.publication, 0)
  else if c = '"' then (.quoted, (Delimited.closing? c rest).getD rest.length)
  else if c = '/' then (.regexp, (Delimited.closing? c rest).getD rest.length)
  else if isBlank c then (.blank, (rest.takeWhile isBlank).length)
  else if isControl c then (.error, 0)
  else (.word, (rest.takeWhile isWordPart).length)

/-- The tokens of a text that starts at the position `start`. -/
def tokensFrom (start : Nat) (text : List Char) : List (Token Tag) :=
  (locate start (cut head text)).map fun (position, piece) =>
    .ofText piece.kind position piece.text

/-- The tokens of a search text without the mark at its end. -/
def tokens (text : String) : List (Token Tag) :=
  tokensFrom 0 text.toList

/-- The empty token at the end of a search text. -/
def endMark (text : String) : Token Tag :=
  .mark .eof (width text.toList)

/-- All tokens of a search text with the mark at its end. -/
def scan (text : String) : List (Token Tag) :=
  tokens text ++ [endMark text]

/-- The first `calls` tokens of a search text, where its end is marked as often
as it is asked for. -/
def scanSteps (text : String) (calls : Nat) : List (Token Tag) :=
  (tokens text ++ List.replicate calls (endMark text)).take calls

end SearchQuery.Search
