import SearchQuery.Proofs.Canonical.Literal
import SearchQuery.Proofs.Canonical.Nesting

/-!
# What the text of a filter tells

The text of a filter tells neither the tokens that its values were read from nor the double
quotes in its strings.  Leaving these out changes the conditions one by one and so commutes
with everything that concerns the nesting of a filter alone.  A printable filter equals what
its text tells exactly when its strings have no double quote (`same_written_iff`).
-/

namespace SearchQuery.Query

namespace Literal

/-- Whether a double quote is lost when the literal is written. -/
def HasQuote : Literal → Prop
  | string text => '"' ∈ text.toList
  | _ => False

theorem withoutQuotes_eq_self_iff {text : String} :
    withoutQuotes text = text ↔ '"' ∉ text.toList := by
  rw [withoutQuotes, ← String.toList_inj, String.toList_ofList, List.filter_eq_self]
  constructor
  · intro all mem
    simpa using all '"' mem
  · intro absent c mem
    apply bne_iff_ne.2
    intro eq
    apply absent
    rwa [← eq]

theorem render_unquoted (literal : Literal) : literal.unquoted.render = literal.render := by
  cases literal with
  | string text =>
      rw [unquoted, render, render,
        withoutQuotes_eq_self_iff.2 (quote_not_mem_withoutQuotes text)]
  | _ => rfl

theorem same_unquoted_iff {literal : Literal} (printable : literal.IsPrintable) :
    literal.unquoted.same literal = true ↔ ¬ literal.HasQuote := by
  cases literal with
  | string text => simp [unquoted, same, HasQuote, withoutQuotes_eq_self_iff]
  | float value =>
      cases value with
      | finite negative x => simp [unquoted, same, HasQuote, Number.Binary64.equal]
      | _ => cases printable
  | invalid text => cases printable
  | _ => simp [unquoted, same, HasQuote]

end Literal

namespace Condition

/-- The condition without the token that its value was read from. -/
def unsourced (condition : Condition) : Condition :=
  .ofLiteral condition.field condition.comparison condition.operand.literal

/-- What the text of a condition tells. -/
def written (condition : Condition) : Condition :=
  .ofLiteral condition.field condition.comparison condition.operand.literal.unquoted

/-- The words that name no field. -/
def reserved : List String :=
  ["and", "or", "true", "false", "null"]

/-- Whether the condition has a text from which it can be read back. -/
structure IsPrintable (condition : Condition) : Prop where
  field_isWord : isWord condition.field = true
  field_not_reserved : condition.field ∉ reserved
  literal : condition.operand.literal.IsPrintable

theorem render_written (condition : Condition) :
    condition.written.render = condition.render := by
  simp [render, written, ofLiteral, Operand.ofLiteral, Literal.render_unquoted]

theorem same_written_iff {condition : Condition} (printable : condition.IsPrintable) :
    condition.written.same condition = true ↔ ¬ condition.operand.literal.HasQuote := by
  rw [← Literal.same_unquoted_iff printable.literal]
  simp [same, written, ofLiteral, Operand.ofLiteral]

end Condition

namespace Filter

/-- The filter with each of its conditions changed. -/
def mapConditions (change : Condition → Condition) : Filter → Filter
  | leaf condition => leaf (change condition)
  | combine connective left right =>
      combine connective (left.mapConditions change) (right.mapConditions change)

/-- The filter without the tokens that its values were read from. -/
def unsourced (filter : Filter) : Filter :=
  filter.mapConditions Condition.unsourced

/-- What the text of a filter tells of its conditions. -/
def written (filter : Filter) : Filter :=
  filter.mapConditions Condition.written

/-- Whether the filter has a text from which it can be read back. -/
def IsPrintable (filter : Filter) : Prop :=
  ∀ condition ∈ filter.conditions, condition.IsPrintable

/-- Whether a double quote is lost when the filter is written. -/
def HasQuote (filter : Filter) : Prop :=
  ∃ condition ∈ filter.conditions, condition.operand.literal.HasQuote

/-! ## Changing conditions -/

section Change

variable (change : Condition → Condition) (connective : Connective)

theorem root?_mapConditions (filter : Filter) :
    (filter.mapConditions change).root? = filter.root? := by
  cases filter <;> rfl

theorem conditions_mapConditions (filter : Filter) :
    (filter.mapConditions change).conditions = filter.conditions.map change := by
  induction filter with
  | leaf condition => rfl
  | combine word left right ihLeft ihRight =>
      simp [mapConditions, conditions, ihLeft, ihRight]

theorem foldl_mapConditions (first : Filter) (rest : List Filter) :
    (rest.map (mapConditions change)).foldl (combine connective) (first.mapConditions change) =
      (rest.foldl (combine connective) first).mapConditions change := by
  induction rest generalizing first with
  | nil => rfl
  | cons next rest ih => exact ih (combine connective first next)

theorem joinAll_mapConditions (filters : List Filter) :
    joinAll connective (filters.map (mapConditions change)) =
      (joinAll connective filters).map (mapConditions change) := by
  cases filters with
  | nil => rfl
  | cons first rest => exact congrArg some (foldl_mapConditions change connective first rest)

theorem render_mapConditions (keeps : ∀ condition, (change condition).render = condition.render)
    (filter : Filter) : (filter.mapConditions change).render = filter.render := by
  induction filter with
  | leaf condition => exact keeps condition
  | combine word left right ihLeft ihRight =>
      rw [mapConditions, render_combine, render_combine,
        renderUnder_congr (root?_mapConditions change left) ihLeft,
        renderUnder_congr (root?_mapConditions change right) ihRight]

end Change

/-- Neither tokens nor double quotes leave a trace in the text. -/
theorem render_unsourced (filter : Filter) : filter.unsourced.render = filter.render :=
  render_mapConditions Condition.unsourced (fun _ => rfl) filter

theorem render_written (filter : Filter) : filter.written.render = filter.render :=
  render_mapConditions Condition.written Condition.render_written filter

/-! ## Equality -/

theorem same_unsourced (first second : Filter) :
    first.unsourced.same second = first.same second := by
  induction first generalizing second with
  | leaf condition => cases second <;> rfl
  | combine connective left right ihLeft ihRight =>
      cases second with
      | leaf condition => rfl
      | combine connective' left' right' =>
          simp only [unsourced] at ihLeft ihRight
          simp [unsourced, mapConditions, same, ihLeft, ihRight]

/-- Equal filters have the same shape. -/
theorem root?_eq_of_same {first second : Filter} (equal : first.same second = true) :
    first.root? = second.root? := by
  cases first <;> cases second <;> simp_all [same, root?]

theorem isLeftNested_of_same {first second : Filter} (equal : first.same second = true)
    (nested : first.IsLeftNested) : second.IsLeftNested := by
  induction first generalizing second with
  | leaf condition =>
      cases second with
      | leaf other => trivial
      | combine => cases equal
  | combine connective left right ihLeft ihRight =>
      cases second with
      | leaf condition => cases equal
      | combine connective' left' right' =>
          simp only [same, Bool.and_eq_true, beq_iff_eq] at equal
          rcases equal with ⟨⟨rfl, equalLeft⟩, equalRight⟩
          have differs : right'.root? ≠ some connective := by
            rw [← root?_eq_of_same equalRight]
            exact nested.2.2
          exact ⟨ihLeft equalLeft nested.1, ihRight equalRight nested.2.1, differs⟩

theorem isLeftNested_mapConditions {change : Condition → Condition} {filter : Filter}
    (nested : filter.IsLeftNested) : (filter.mapConditions change).IsLeftNested := by
  induction filter with
  | leaf condition => trivial
  | combine connective left right ihLeft ihRight =>
      have differs : (right.mapConditions change).root? ≠ some connective := by
        rw [root?_mapConditions]
        exact nested.2.2
      exact ⟨ihLeft nested.1, ihRight nested.2.1, differs⟩

theorem isPrintable_combine_iff {connective : Connective} {left right : Filter} :
    (combine connective left right).IsPrintable ↔ left.IsPrintable ∧ right.IsPrintable :=
  List.forall_mem_append

/-- A printable filter equals what its text tells unless a double quote is lost. -/
theorem same_written_iff {filter : Filter} (printable : filter.IsPrintable) :
    filter.written.same filter = true ↔ ¬ filter.HasQuote := by
  induction filter with
  | leaf condition =>
      have here := Condition.same_written_iff (printable condition List.mem_cons_self)
      simpa [written, mapConditions, same, HasQuote, conditions] using here
  | combine connective left right ihLeft ihRight =>
      rcases isPrintable_combine_iff.1 printable with ⟨printableLeft, printableRight⟩
      have both : (combine connective left right).HasQuote ↔ left.HasQuote ∨ right.HasQuote := by
        simp only [HasQuote, conditions, List.mem_append, or_and_right, exists_or]
      rw [both, not_or, ← ihLeft printableLeft, ← ihRight printableRight]
      simp [written, mapConditions, same]

end Filter

end SearchQuery.Query
