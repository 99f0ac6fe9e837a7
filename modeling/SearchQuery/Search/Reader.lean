import SearchQuery.Search.Term

/-!
# Reading search terms

Terms are read token by token, and only the last one is still open.  Bare words
with blanks between them make one term; every other token starts a term of its
own.  A blank after a term lies in its span, and so does a blank before words at
the start of the text; only a blank at the start that no word follows is a term
itself.

A sigil wants its text at once: a phrase, a word, or the end of the text while
it is still being typed.
-/

namespace SearchQuery.Search

open Text

/-- Why a search text has no terms: a token that cannot stand where it stands. -/
structure Error where
  expected : List Tag
  found : Token Tag
  deriving DecidableEq

namespace Error

/-- The place of the token. -/
def position (error : Error) : Nat :=
  error.found.span.start

/-- The wording of the error. -/
def message (error : Error) : String :=
  error.found.refusal Tag.name error.expected

end Error

/-- The tags of the tokens that a term can start with, and of the end. -/
def termStart : List Tag :=
  [.quoted, .word, .regexp, .mention, .publication, .blank, .eof]

/-- The tags of the tokens that can follow a sigil. -/
def sigilText : List Tag :=
  [.quoted, .word, .eof]

/-- What the reader is in the middle of. -/
inductive Last
  | nothing
  | blank (token : Token Tag)
  | sigil (subject : Subject) (token : Token Tag)
  | term (term : Term) (spaced : Bool)
  deriving DecidableEq

/-- A reader between two tokens: the terms that nothing can change any more, and
the open one. -/
structure Reader where
  finished : List Term
  last : Last
  deriving DecidableEq

namespace Last

/-- The term of a blank that no word follows. -/
def blankTerm (token : Token Tag) : Term :=
  ⟨token.span, .content, token.lexeme, .fuzzy, .blank⟩

/-- The term that bare words start. -/
def wordTerm (span : Span) (word : String) : Term :=
  ⟨span, .content, word, .fuzzy, .word⟩

/-- The term of a sigil with its text. -/
def sigilTerm (subject : Subject) (sigil text : Token Tag) : Term :=
  ⟨sigil.span.merge text.span, subject, Delimited.inner '"' text.lexeme, .equal, text.tag⟩

/-- Whether the term was made of bare words. -/
def isWords (term : Term) : Bool :=
  term.subject == .content && term.tag == .word

/-- The open term, taken as it is. -/
def close : Last → List Term
  | nothing => []
  | blank token => [blankTerm token]
  | sigil _ _ => []
  | term open? _ => [open?]

end Last

namespace Reader

/-- A reader before the first token. -/
def start : Reader :=
  ⟨[], .nothing⟩

/-- Closes the open term and opens another one. -/
def begin (reader : Reader) (last : Last) : Reader :=
  ⟨reader.finished ++ reader.last.close, last⟩

/-- Takes a blank: into the open term if it has none yet. -/
def takeBlank (reader : Reader) (token : Token Tag) : Reader :=
  match reader.last with
  | .term term false =>
      { reader with last := .term { term with span.stop := token.span.stop } true }
  | _ => reader.begin (.blank token)

/-- Takes a bare word: into the open term if that is made of words, or is a blank
at the start. -/
def takeWord (reader : Reader) (token : Token Tag) : Reader :=
  match reader.last with
  | .blank blank =>
      { reader with
        last := .term (Last.wordTerm ⟨blank.span.start, token.span.stop⟩ token.lexeme) false }
  | .term term true =>
      if Last.isWords term then
        { reader with
          last := .term
            { term with
              span.stop := token.span.stop
              value := term.value ++ " " ++ token.lexeme } false }
      else reader.begin (.term (Last.wordTerm token.span token.lexeme) false)
  | _ => reader.begin (.term (Last.wordTerm token.span token.lexeme) false)

/-- Takes a token where a term can start or go on. -/
def takePlain (reader : Reader) (token : Token Tag) : Except Error Reader :=
  match token.tag with
  | .blank => .ok (reader.takeBlank token)
  | .word => .ok (reader.takeWord token)
  | .quoted =>
      .ok (reader.begin (.term
        ⟨token.span, .content, Delimited.inner '"' token.lexeme, .equal, .quoted⟩ false))
  | .regexp =>
      .ok (reader.begin (.term
        ⟨token.span, .content, Delimited.inner '/' token.lexeme, .like, .regexp⟩ false))
  | .mention => .ok (reader.begin (.sigil .actor token))
  | .publication => .ok (reader.begin (.sigil .publication token))
  | .eof => .ok reader
  | .error => .error ⟨termStart, token⟩

/-- Takes one token. -/
def step (reader : Reader) (token : Token Tag) : Except Error Reader :=
  match reader.last with
  | .sigil subject sigil =>
      if token.tag ∈ sigilText then
        .ok { reader with last := .term (Last.sigilTerm subject sigil token) false }
      else .error ⟨sigilText, token⟩
  | _ => reader.takePlain token

/-- The terms at the mark that ends the text. -/
def finish (reader : Reader) (mark : Token Tag) : List Term :=
  reader.finished ++
    match reader.last with
    | .sigil subject sigil => [Last.sigilTerm subject sigil mark]
    | last => last.close

end Reader

namespace Term

/-- Reads the terms of a search text. -/
def readAll (text : String) : Except Error (List Term) := do
  let reader ← (tokens text).foldlM Reader.step Reader.start
  return reader.finish (endMark text)

end Term

end SearchQuery.Search
