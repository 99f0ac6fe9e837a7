import SearchQuery.Field.Kind
import SearchQuery.Query.Filter
import SearchQuery.Text.EditDistance

/-!
# Catalogues of fields

A source of fields knows what can be searched and how far one name is from
another.  A name that finds no field is answered with the field whose name is
nearest, if one is near enough to have been meant.  Against a source a single
condition is composed from a field, a comparison and a value typed as text.

A catalogue is the usual source: it lists the fields, and a field is found by its
exact name.
-/

namespace SearchQuery

/-- A field that can be searched. -/
structure Field where
  name : String
  kind : Field.Kind
  deriving DecidableEq

namespace Field

open Text
open Query (Comparison Condition Error Filter)

/-- The distance of two names: the edits that lead from one to the other. -/
def nameDistance (name other : String) : Nat :=
  editDistance name.toList other.toList

/-- The greatest distance at which a name is suggested. -/
def suggestionDistance : Nat :=
  3

section

variable (distance : String → String → Nat)

/-- The first of the names with the least distance from `name`, and that
distance. -/
def nearest? (name : String) : List String → Option (String × Nat)
  | [] => none
  | candidate :: rest =>
      let here := distance name candidate
      match nearest? name rest with
      | some (other, least) => if least < here then some (other, least) else some (candidate, here)
      | none => some (candidate, here)

/-- The name of the field that may have been meant by `name`. -/
def suggestion? (fields : List Field) (name : String) : Option String :=
  match nearest? distance name ((fields.map Field.name).filter (· != "")) with
  | some (candidate, least) =>
      if 0 < least ∧ least ≤ suggestionDistance then some candidate else none
  | none => none

end

/-- What can be searched: the fields that are suggested, how a field is found by
its name, the comparisons that the kinds of fields support, and the distance by
which a name is near to another. -/
structure Source where
  fields : List Field
  find? : String → Option Field
  comparisons : Kind → List Comparison
  distance : String → String → Nat

namespace Source

/-- The field that is found by this name. -/
def lookup (source : Source) (name : String) : Except Error Field :=
  match source.find? name with
  | some field => .ok field
  | none => .error (.unknownField name (suggestion? source.distance source.fields name))

/-- Composes a condition on a field of the source from a value typed as text.
The field has to be known, its kind has to support the comparison, and the text
has to be a value of that kind, in this order. -/
def compose (source : Source) (name : String) (comparison : Comparison) (raw : String) :
    Except Error Filter := do
  let field ← source.lookup name
  if comparison ∉ source.comparisons field.kind then
    throw (.unsupportedOperator comparison field.name)
  let value := field.kind.value raw
  if !value.isValid then
    throw (.invalidLiteral raw 0)
  return .leaf (.ofLiteral field.name comparison value)

end Source

/-- The fields that can be searched, and the comparisons that their kinds
support. -/
structure Catalogue where
  fields : List Field
  comparisons : Kind → List Comparison

namespace Catalogue

/-- The catalogue of these fields, with the usual comparisons. -/
def ofFields (fields : List Field) : Catalogue :=
  ⟨fields, Kind.comparisons⟩

/-- The fields of the search index as it comes. -/
def builtInFields : List Field :=
  [⟨"id", .identifier⟩, ⟨"publication", .keyword⟩, ⟨"series", .int⟩, ⟨"episode", .int⟩,
    ⟨"actor", .keyword⟩, ⟨"content", .text⟩, ⟨"type", .keyword⟩, ⟨"tags", .keywordList⟩]

/-- In a catalogue, the first field with exactly this name is found.  Names are
suggested by the given distance. -/
def withDistance (catalogue : Catalogue) (distance : String → String → Nat) : Source :=
  ⟨catalogue.fields, fun name => catalogue.fields.find? (·.name == name), catalogue.comparisons,
    distance⟩

/-- The catalogue as a source, with names suggested by the edits between them. -/
def toSource (catalogue : Catalogue) : Source :=
  catalogue.withDistance nameDistance

/-- The field of the catalogue with this name. -/
def lookup (catalogue : Catalogue) (name : String) : Except Error Field :=
  catalogue.toSource.lookup name

/-- Composes a condition on a field of the catalogue. -/
def compose (catalogue : Catalogue) (name : String) (comparison : Comparison) (raw : String) :
    Except Error Filter :=
  catalogue.toSource.compose name comparison raw

end Catalogue

end Field

end SearchQuery
