import SearchQuery.Query.Operator
import SearchQuery.Search.Lexeme

/-!
# Search terms

A term is one thing that a search asks for: that the content, an actor or a
publication compares with a value in a certain way.
-/

namespace SearchQuery.Search

open Text
open Query (Comparison)

/-- What a term is about. -/
inductive Subject
  | content
  | actor
  | publication
  deriving DecidableEq

namespace Subject

/-- All subjects. -/
def all : List Subject :=
  [content, actor, publication]

/-- The name of the field that a subject stands for. -/
def name : Subject → String
  | content => "content"
  | actor => "actor"
  | publication => "publication"

/-- The subject with this name. -/
def ofName? (text : String) : Option Subject :=
  all.find? (·.name == text)

@[simp]
theorem ofName?_name (subject : Subject) : ofName? subject.name = some subject := by
  cases subject <;> rfl

end Subject

/-- A search term, with the place it has in the text.  The tag is that of the
token that gave the value; it decides how the term is written. -/
structure Term where
  span : Span
  subject : Subject
  value : String
  comparison : Comparison
  tag : Tag
  deriving DecidableEq

namespace Term

/-- A term that stands in no text. -/
def ofValue (subject : Subject) (value : String) (comparison : Comparison) (tag : Tag) : Term :=
  ⟨.zero, subject, value, comparison, tag⟩

/-- What a term asks for, without its place and its spelling. -/
def request (term : Term) : Subject × String × Comparison :=
  (term.subject, term.value, term.comparison)

end Term

end SearchQuery.Search
