import SearchQuery.Query.Error
import SearchQuery.Text.Blank
import SearchQuery.Text.Delimited

/-!
# Scanning a query

A query is cut into pieces by longest match.  Text that starts no piece of a
known class is a piece of its own with a fault: a single character, or all of
an unterminated phrase or pattern.  So scanning never stops, and a query with
faults still has lexemes that put together give the query.

Three views of the pieces are offered.  `lexemes` is the tolerant one and keeps
the faults; `tokens` is the strict one and fails at the first fault; the module
`SearchQuery.Query.Scanner` gives the pieces one by one.
-/

namespace SearchQuery.Query

open Text

/-- Why a piece of text is no token. -/
inductive Fault
  | unknownEntity (entity : Char)
  | unterminatedString
  | unterminatedRegexp
  deriving DecidableEq

/-- The error of a fault at a position. -/
def Fault.at (fault : Fault) (position : Nat) : Error :=
  match fault with
  | .unknownEntity entity => .unknownEntity entity position
  | .unterminatedString => .unterminatedString position
  | .unterminatedRegexp => .unterminatedRegexp position

/-- The class of a piece.  All classes but one fix the tag; which tag a word has
depends on the word. -/
inductive Shape
  | plain (tag : Tag)
  | word
  deriving DecidableEq

/-- The tag of a piece of this class that holds `text`. -/
def Shape.tag (shape : Shape) (text : List Char) : Tag :=
  match shape with
  | plain tag => tag
  | word => Tag.ofWord (String.ofList text)

/-- The characters that a word can start with. -/
def isWordStart (c : Char) : Bool :=
  c.isAlpha || c == '_'

/-- The characters that can go on a word. -/
def isWordPart (c : Char) : Bool :=
  c.isAlphanum || c == '_'

/-- The first piece of a text, by its class and the number of characters that
it takes after the first. -/
abbrev Head : Type :=
  Except Fault Shape × Nat

/-- A sign that is one tag alone and another tag before an equals sign. -/
def beforeEquals (rest : List Char) (alone joined : Except Fault Shape) : Head :=
  match rest with
  | '=' :: _ => (joined, 1)
  | _ => (alone, 0)

/-- A delimited literal, or the fault if it has no closing delimiter; the fault
takes all the text that is left. -/
def delimited (delimiter : Char) (kind : LiteralKind) (fault : Fault) (rest : List Char) : Head :=
  match Delimited.closing? delimiter rest with
  | some length => (.ok (.plain (.literal kind)), length)
  | none => (.error fault, rest.length)

/-- A number: digits, and with a point among or after them a float. -/
def number (rest : List Char) : Head :=
  let whole := rest.takeWhile Char.isDigit
  match rest.dropWhile Char.isDigit with
  | '.' :: places =>
      (.ok (.plain (.literal .float)),
        whole.length + 1 + (places.takeWhile Char.isDigit).length)
  | _ => (.ok (.plain (.literal .int)), whole.length)

/-- The first piece of the text `c :: rest`. -/
def head (c : Char) (rest : List Char) : Head :=
  let sign comparison : Except Fault Shape := .ok (.plain (.comparison comparison))
  if c = '(' then (.ok (.plain .openParen), 0)
  else if c = ')' then (.ok (.plain .closeParen), 0)
  else if c = '=' then (sign .equal, 0)
  else if c = '!' then beforeEquals rest (.error (.unknownEntity c)) (sign .notEqual)
  else if c = '~' then beforeEquals rest (sign .fuzzy) (sign .like)
  else if c = '>' then beforeEquals rest (sign .greater) (sign .atLeast)
  else if c = '<' then beforeEquals rest (sign .less) (sign .atMost)
  else if c = '"' then delimited c .string .unterminatedString rest
  else if c = '/' then delimited c .regexp .unterminatedRegexp rest
  else if isBlank c then (.ok (.plain .blank), (rest.takeWhile isBlank).length)
  else if isWordStart c then (.ok .word, (rest.takeWhile isWordPart).length)
  else if c.isDigit || c == '-' then number rest
  else (.error (.unknownEntity c), 0)

/-- A token of the tolerant scan, with the error if it is no valid token. -/
structure Lexeme where
  token : Token Tag
  error : Option Error
  deriving DecidableEq

namespace Lexeme

/-- The lexeme of a piece that starts at `start`. -/
def ofPiece (start : Nat) (piece : Piece (Except Fault Shape)) : Lexeme :=
  match piece.kind with
  | .ok shape => ⟨.ofText (shape.tag piece.text) start piece.text, none⟩
  | .error fault => ⟨.ofText .error start piece.text, some (fault.at start)⟩

/-- The token, or the error of a lexeme that is none. -/
def strict (lexeme : Lexeme) : Except Error (Token Tag) :=
  match lexeme.error with
  | some error => .error error
  | none => .ok lexeme.token

end Lexeme

/-- The lexemes of a text that starts at the position `start`. -/
def lexemesFrom (start : Nat) (text : List Char) : List Lexeme :=
  (locate start (cut head text)).map fun (position, piece) => .ofPiece position piece

/-- The lexemes of a query, faults included. -/
def lexemes (query : String) : List Lexeme :=
  lexemesFrom 0 query.toList

/-- The tokens of a query without the mark at its end, or the first fault. -/
def tokens (query : String) : Except Error (List (Token Tag)) :=
  (lexemes query).mapM Lexeme.strict

/-- The empty token at the end of a query. -/
def endMark (query : String) : Token Tag :=
  .mark .eof (width query.toList)

/-- The strict scan: all tokens with the mark at the end, or the first fault. -/
def scan (query : String) : Except Error (List (Token Tag)) :=
  (tokens query).map (· ++ [endMark query])

/-- What the tolerant scan finds. -/
structure LenientScan where
  tokens : List (Token Tag)
  errors : List Error

namespace LenientScan

/-- The error at this position, if there is one. -/
def errorAt (found : LenientScan) (position : Nat) : Option Error :=
  found.errors.find? (·.position? == some position)

end LenientScan

/-- The tolerant scan: all tokens, faulty ones with the tag `error`, with the
mark at the end; and the errors of the faulty ones in their order. -/
def scanLenient (query : String) : LenientScan where
  tokens := (lexemes query).map Lexeme.token ++ [endMark query]
  errors := (lexemes query).filterMap Lexeme.error

end SearchQuery.Query
