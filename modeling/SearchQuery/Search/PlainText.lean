import SearchQuery.Search.Term

/-!
# Writing search terms

Terms are written as search text: exact content as a phrase, patterns between
slashes, other content bare, and the other subjects behind their sigil.  Text
that would not be read as one word is put in quotes there.
-/

namespace SearchQuery.Search

open Text

/-- Whether the text is read as bare words: it has a character that is not blank,
does not start a pattern, and holds no sigil and no quote. -/
def isBareText (text : String) : Bool :=
  !(trim text.toList).isEmpty && text.toList.head? != some '/' &&
    text.toList.all fun c => c != '@' && c != '~' && c != '"'

/-- Whether the text is read as one bare word. -/
def isSingleWord (text : String) : Bool :=
  isBareText text && text.toList.all fun c => !isBlank c

/-- The text as a phrase, which cannot hold a quote. -/
def phrase (text : String) : String :=
  "\"" ++ String.ofList (text.toList.filter (· != '"')) ++ "\""

namespace Term

/-- The text behind a sigil. -/
def valueText (term : Term) : String :=
  if term.tag = .quoted ∨ ¬isSingleWord term.value then phrase term.value else term.value

/-- The search text of one term. -/
def plainText (term : Term) : String :=
  match term.subject with
  | .content =>
      if term.comparison = .like ∨ term.tag = .regexp then "/" ++ term.value ++ "/"
      else if term.comparison = .equal then "\"" ++ term.value ++ "\""
      else term.value
  | .actor => "@" ++ term.valueText
  | .publication => "~" ++ term.valueText

/-- The search text of several terms, with a space between two of them. -/
def plainTextAll (terms : List Term) : String :=
  String.intercalate " " (terms.map plainText)

end Term

end SearchQuery.Search
