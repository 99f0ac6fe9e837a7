import SearchQuery.Query.Filter
import SearchQuery.Search.PlainText

/-!
# Terms and filters

A list of terms is a filter: the conditions of its terms joined by `and`.  The
other way, the conditions of a filter that have a form as a term are kept, from
left to right, and all others are left out.
-/

namespace SearchQuery.Search.Term

open Query

/-- The literal that a term compares with: a pattern if the term was written as
one.  Quotes are left out. -/
def literal (term : Term) : Literal :=
  match term.tag with
  | .regexp => .regexp (Literal.withoutQuotes term.value)
  | _ => .string (Literal.withoutQuotes term.value)

/-- The condition that a term states. -/
def condition (term : Term) : Condition :=
  .ofLiteral term.subject.name term.comparison term.literal

/-- The filter that a list of terms states; none if there are no terms. -/
def filterAll? (terms : List Term) : Option Filter :=
  Filter.joinAll .and (terms.map fun term => .leaf term.condition)

/-- The query of a list of terms; it is empty if there are no terms. -/
def queryAll (terms : List Term) : String :=
  match filterAll? terms with
  | some filter => filter.render
  | none => ""

/-- The value and the tag of the term that a condition on this subject has. -/
def spelling? (subject : Subject) (comparison : Comparison) (literal : Literal) :
    Option (String × Tag) :=
  match subject, comparison, literal with
  | .content, .fuzzy, .string text => if isBareText text then some (text, .word) else none
  | .content, .equal, .string text => if '"' ∉ text.toList then some (text, .quoted) else none
  | .content, .like, .regexp text => if '/' ∉ text.toList then some (text, .regexp) else none
  | .actor, .equal, .string text =>
      some (text, if isSingleWord text then .word else .quoted)
  | .publication, .equal, .string text =>
      some (text, if isSingleWord text then .word else .quoted)
  | _, _, _ => none

/-- The term that states a condition, if there is one. -/
def ofCondition? (condition : Condition) : Option Term :=
  match Subject.ofName? condition.field with
  | some subject =>
      (spelling? subject condition.comparison condition.operand.literal).map fun (value, tag) =>
        .ofValue subject value condition.comparison tag
  | none => none

/-- The terms of the conditions of a filter. -/
def ofFilter (filter : Filter) : List Term :=
  filter.conditions.filterMap ofCondition?

/-- How many conditions of a filter have no form as a term. -/
def skipped (filter : Filter) : Nat :=
  filter.conditions.length - (ofFilter filter).length

end SearchQuery.Search.Term
