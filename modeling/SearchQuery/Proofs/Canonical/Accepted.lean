import SearchQuery.Proofs.Canonical.RoundTrip
import SearchQuery.Proofs.Grammar.Clauses
import SearchQuery.Proofs.Scan.Longest

/-!
# Filters that are read have a text

What is read from a query can be written in a query: a field is a word that is not reserved,
and no literal holds its delimiter or is no value (`Filter.isAccepted_of_read`).  There is one
exception.  A numeral with a point may be too large for the format of numbers; then it is read
as an infinity, which has no text.  Where no numeral of a query overflows, the filter is
printable (`Filter.isPrintable_iff_of_read`).
-/

namespace SearchQuery.Query

open Number Text

/-- Whether the token is a numeral with a point whose value is too large. -/
def Overflows (token : Token Tag) : Prop :=
  token.tag = .literal .float ∧
    ∃ negative, Binary64.read? token.lexeme.toList = some (.infinite negative)

/-! ## Literals -/

theorem Spells.exists_string {text : List Char} (spells : Spells (.literal .string) text) :
    ∃ inside, '"' ∉ inside ∧ text = '"' :: (inside ++ ['"']) := by
  generalize tag_eq : Tag.literal .string = tag at spells
  cases spells with
  | string absent => exact ⟨_, absent, rfl⟩
  | word => exact absurd tag_eq.symm (Tag.ofWord_ne rfl _)
  | _ => cases tag_eq

theorem Spells.exists_regexp {text : List Char} (spells : Spells (.literal .regexp) text) :
    ∃ inside, '/' ∉ inside ∧ text = '/' :: (inside ++ ['/']) := by
  generalize tag_eq : Tag.literal .regexp = tag at spells
  cases spells with
  | regexp absent => exact ⟨_, absent, rfl⟩
  | word => exact absurd tag_eq.symm (Tag.ofWord_ne rfl _)
  | _ => cases tag_eq

theorem Spells.point_mem {text : List Char} (spells : Spells (.literal .float) text) :
    '.' ∈ text := by
  generalize tag_eq : Tag.literal .float = tag at spells
  cases spells with
  | float => simp
  | word => exact absurd tag_eq.symm (Tag.ofWord_ne rfl _)
  | _ => cases tag_eq

theorem Spells.isWord {text : List Char} (spells : Spells .field text) :
    isWord (String.ofList text) = true ∧ Tag.ofWord (String.ofList text) = .field := by
  generalize tag_eq : Tag.field = tag at spells
  cases spells with
  | word starts parts =>
      refine ⟨?_, rfl⟩
      simp only [Query.isWord, String.toList_ofList, starts, Bool.true_and]
      exact List.all_eq_true.2 parts
  | _ => cases tag_eq

namespace Literal

/-- Numbers with a point are read from numerals with a point. -/
theorem read?_eq_some_float_iff {kind : LiteralKind} {text : String} {value : Binary64} :
    read? kind text = some (float value) ↔
      kind = .float ∧ Binary64.read? text.toList = some value := by
  cases kind <;> simp [read?]

theorem unquoted_eq_self {literal : Literal} (noQuote : ¬ literal.HasQuote) :
    literal.unquoted = literal := by
  cases literal with
  | string text => exact congrArg string (withoutQuotes_eq_self_iff.2 noQuote)
  | _ => rfl

/-- A literal that is read from a spelled token has no double quote, and it is printable
unless it is a numeral that overflows. -/
theorem isPrintable_of_spells {kind : LiteralKind} {text : String} {literal : Literal}
    (spells : Spells (.literal kind) text.toList) (reads : read? kind text = some literal) :
    ¬ literal.HasQuote ∧
      (literal.IsPrintable ∨ ∃ negative, literal = float (.infinite negative)) := by
  cases kind with
  | null =>
      cases reads
      exact ⟨id, .inl trivial⟩
  | bool | int =>
      rcases Option.map_eq_some_iff.1 reads with ⟨value, -, rfl⟩
      exact ⟨id, .inl trivial⟩
  | float =>
      rcases Option.map_eq_some_iff.1 reads with ⟨value, found, rfl⟩
      refine ⟨id, ?_⟩
      cases value with
      | nan => exact absurd found (Binary64.read?_ne_nan_of_point spells.point_mem)
      | infinite negative => exact .inr ⟨negative, rfl⟩
      | finite => exact .inl rfl
  | string =>
      rcases spells.exists_string with ⟨inside, absent, delimited⟩
      cases reads
      rw [Delimited.inner_of_closed delimited]
      exact ⟨by simpa [HasQuote] using absent, .inl trivial⟩
  | regexp =>
      rcases spells.exists_regexp with ⟨inside, absent, delimited⟩
      cases reads
      rw [Delimited.inner_of_closed delimited]
      exact ⟨id, .inl (by simpa [IsPrintable] using absent)⟩

end Literal

namespace Condition

/-- What holds of every condition that is read from a query.  Only an infinity keeps it from
being printable. -/
structure IsAccepted (condition : Condition) : Prop where
  field_isWord : isWord condition.field = true
  field_not_reserved : condition.field ∉ reserved
  noQuote : ¬ condition.operand.literal.HasQuote
  literal : condition.operand.literal.IsPrintable ∨
    ∃ negative, condition.operand.literal = .float (.infinite negative)

theorem isAccepted_of_isReadAs {clause : Clause} {condition : Condition}
    (read : clause.IsReadAs condition)
    (spelled : ∀ token ∈ clause.tokens, Spells token.tag token.lexeme.toList) :
    condition.IsAccepted := by
  have field := spelled clause.field (by simp [Clause.tokens])
  have value := spelled clause.value (by simp [Clause.tokens])
  rw [read.fieldTag] at field
  have word := field.isWord
  rw [String.ofList_toList, read.field] at word
  rcases read.value with ⟨kind, valueTag, reads⟩
  rw [valueTag] at value
  rcases Literal.isPrintable_of_spells value reads with ⟨noQuote, printable⟩
  exact ⟨word.1, Tag.ofWord_eq_field_iff.1 word.2, noQuote, printable⟩

/-- A condition without a double quote tells all but the token of its value. -/
theorem written_eq_unsourced {condition : Condition}
    (noQuote : ¬ condition.operand.literal.HasQuote) :
    condition.written = condition.unsourced := by
  rw [written, unsourced, Literal.unquoted_eq_self noQuote]

end Condition

/-! ## Queries -/

namespace Filter

variable {query : String} {filter : Filter}

/-- All conditions can be written, but for infinities. -/
def IsAccepted (filter : Filter) : Prop :=
  ∀ condition ∈ filter.conditions, condition.IsAccepted

theorem mapConditions_congr {change other : Condition → Condition}
    (same : ∀ condition ∈ filter.conditions, change condition = other condition) :
    filter.mapConditions change = filter.mapConditions other := by
  induction filter with
  | leaf condition => exact congrArg leaf (same condition List.mem_cons_self)
  | combine connective left right ihLeft ihRight =>
      rcases List.forall_mem_append.1 same with ⟨sameLeft, sameRight⟩
      rw [mapConditions, mapConditions, ihLeft sameLeft, ihRight sameRight]

/-- The tokens of a query that is read are spelled, and the filter has its clauses. -/
theorem hasClauses_of_read (found : read query = .ok filter) :
    HasClauses (significant ((lexemes query).map Lexeme.token)) filter ∧
      ∀ token ∈ (lexemes query).map Lexeme.token, Spells token.tag token.lexeme.toList := by
  rcases read_eq_ok_iff.1 found with ⟨scanned, scans, run⟩
  rcases tokens_eq_ok_iff.1 scans with ⟨faultless, rfl⟩
  refine ⟨(Reader.run_eq_ok_iff.1 run).hasClauses, ?_⟩
  intro token mem
  rcases List.mem_map.1 mem with ⟨lexeme, lexemeMem, rfl⟩
  exact spells_of_mem_lexemesFrom lexemeMem (faultless lexeme lexemeMem)

/-- What is read from a query can be written, but for infinities. -/
theorem isAccepted_of_read (found : read query = .ok filter) : filter.IsAccepted := by
  rcases hasClauses_of_read found with ⟨clauses, spelled⟩
  intro condition mem
  rcases clauses.exists_clause mem with ⟨clause, isRead, within⟩
  apply Condition.isAccepted_of_isReadAs isRead
  intro token tokenMem
  exact spelled token (List.mem_of_mem_filter (within token tokenMem))

/-- A filter that is read is printable exactly when no numeral of its query overflows. -/
theorem isPrintable_iff_of_read (found : read query = .ok filter) :
    filter.IsPrintable ↔ ∀ lexeme ∈ lexemes query, ¬ Overflows lexeme.token := by
  rcases hasClauses_of_read found with ⟨clauses, -⟩
  constructor
  · rintro printable lexeme mem ⟨tag, negative, infinite⟩
    have significantMem :
        lexeme.token ∈ significant ((lexemes query).map Lexeme.token) :=
      List.mem_filter.2 ⟨List.mem_map_of_mem mem, by simp [tag]⟩
    rcases clauses.exists_condition significantMem tag with ⟨condition, conditionMem, reads⟩
    have isFinite := (printable condition conditionMem).literal
    have infinity : Literal.read? .float lexeme.token.lexeme =
        some (.float (.infinite negative)) := Literal.read?_eq_some_float_iff.2 ⟨rfl, infinite⟩
    rw [infinity] at reads
    rw [← Option.some.inj reads] at isFinite
    cases isFinite
  · intro bounded condition mem
    have accepted := isAccepted_of_read found condition mem
    refine ⟨accepted.field_isWord, accepted.field_not_reserved, ?_⟩
    rcases accepted.literal with printable | ⟨negative, infinite⟩
    · exact printable
    · rcases clauses.exists_clause mem with ⟨clause, isRead, within⟩
      rcases isRead.value with ⟨kind, valueTag, reads⟩
      rw [infinite, Literal.read?_eq_some_float_iff] at reads
      rcases reads with ⟨rfl, overflow⟩
      have valueMem := List.mem_of_mem_filter (within clause.value (by simp [Clause.tokens]))
      rcases List.mem_map.1 valueMem with ⟨lexeme, lexemeMem, eq⟩
      rw [← eq] at valueTag overflow
      exact absurd ⟨valueTag, negative, overflow⟩ (bounded lexeme lexemeMem)

/-- A printable filter that was read from a query is read back from its text with all its chains
nested to the left. -/
theorem exists_reread_of_isPrintable (printable : filter.IsPrintable)
    (accepted : filter.IsAccepted) :
    ∃ reread, read filter.render = .ok reread ∧
      reread.unsourced = filter.leftNested.unsourced ∧ reread.render = filter.render := by
  rcases printable.exists_reread with ⟨reread, found, told⟩
  have noQuotes : filter.leftNested.written = filter.leftNested.unsourced := by
    apply mapConditions_congr
    intro condition mem
    rw [conditions_leftNested] at mem
    exact Condition.written_eq_unsourced (accepted condition mem).noQuote
  refine ⟨reread, found, told.trans noQuotes, ?_⟩
  rw [← render_unsourced, told, render_written, render_leftNested]

end Filter

end SearchQuery.Query
