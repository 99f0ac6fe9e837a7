import SearchQuery.Field.Catalogue
import SearchQuery.Proofs.Canonical.Overflow

/-!
# Composed conditions

A condition that is composed from typed text is written as a query of one condition.  Whatever
the text is, it can neither end its own literal nor start another condition, since the literal is
made first and the text of a literal is one token.  So the query is read as the condition that
was composed, but for double quotes (`Source.exists_reread_of_compose`).  Only a number that is
not finite has no text that can be read; the words `NaN` and `inf` stand for no value.
-/

namespace SearchQuery.Query

open Number Text

/-! ## Numbers that are not finite -/

/-- A condition whose value is refused is not read, whatever stands behind the value. -/
theorem Filter.read_ne_ok_of_refused {field query : String} {sign : Comparison} {value : Word}
    {rest : List Word} (separated : Word.Separated
      (⟨.field, field⟩ :: ⟨.comparison sign, sign.symbol⟩ :: value :: rest) [])
    (text : query.toList =
      Word.textOf (⟨.field, field⟩ :: ⟨.comparison sign, sign.symbol⟩ :: value :: rest))
    (notBlank : value.tag ≠ .blank)
    (refused : ∀ token operand, Word.ofToken token = value → Operand.ofToken token ≠ .ok operand)
    (filter : Filter) : read query ≠ .ok filter := by
  intro found
  rcases read_eq_ok_iff.1 found with ⟨scanned, scans, run⟩
  obtain ⟨others, scansOthers, words⟩ := exists_tokens_of_separated separated text
  obtain rfl : scanned = others := Except.ok.inj (scans.symm.trans scansOthers)
  simp only [List.map_eq_cons_iff, Word.ofToken, Word.mk.injEq] at words
  obtain ⟨name, -, rfl, ⟨nameTag, -⟩, comparison, -, rfl, ⟨comparisonTag, -⟩, token, behind, rfl,
    rfl, -⟩ := words
  have kept : significant (name :: comparison :: token :: behind) =
      name :: comparison :: token :: significant behind := by
    have notBlank : token.tag ≠ .blank := notBlank
    simp [significant, nameTag, comparisonTag, notBlank]
  have isRefused : ∃ error, Operand.ofToken token = .error error := by
    cases answer : Operand.ofToken token with
    | ok operand => exact absurd answer (refused token operand rfl)
    | error error => exact ⟨error, rfl⟩
  rcases isRefused with ⟨error, isRefused⟩
  rw [kept] at run
  simp [Reader.run, Reader.start, Reader.step, nameTag, comparisonTag, isRefused, bind,
    Except.bind] at run

/-- A number that is not finite is written as words of which the first is refused as a value. -/
theorem exists_words_of_not_isFinite {value : Binary64} (notFinite : value.isFinite = false) :
    ∃ first rest, Word.textOf (first :: rest) = (Literal.float value).render.toList ∧
      Word.Separated (first :: rest) [] ∧
      StartsOutside (· == '=') (Word.textOf (first :: rest) ++ []) ∧ first.tag ≠ .blank ∧
      ∀ token operand, Word.ofToken token = first → Operand.ofToken token ≠ .ok operand := by
  have refused {text : String} (token : Token Tag) (operand : Operand)
      (word : Word.ofToken token = ⟨.field, text⟩) : Operand.ofToken token ≠ .ok operand := by
    obtain ⟨tag, -⟩ := Word.mk.inj word
    simp [Operand.ofToken, tag]
  cases value with
  | finite negative magnitude => cases notFinite
  | nan =>
      have separated : Word.Separated [⟨.field, "NaN"⟩] [] :=
        ⟨@spells_of_isWord "NaN" rfl, startsOutside_nil _, trivial⟩
      exact ⟨⟨.field, "NaN"⟩, [], by decide +kernel, separated, startsOutside_cons_iff.2 rfl,
        Tag.noConfusion, refused⟩
  | infinite negative =>
      have text := Literal.textOf_shown (.float (.infinite negative))
      rcases Literal.separated_shown (.inr ⟨negative, rfl⟩) endsFilter_nil with
        ⟨separated, noEquals⟩
      cases negative with
      | false => exact ⟨_, _, text, separated, noEquals, Tag.noConfusion, refused⟩
      | true =>
          refine ⟨_, _, text, separated, noEquals, Tag.noConfusion, ?_⟩
          intro token operand word
          rcases Word.mk.inj word with ⟨tag, lexeme⟩
          have noNumber : Literal.read? .int "-" = none := rfl
          simp [Operand.ofToken, tag, lexeme, noNumber]

/-! ## Conditions -/

namespace Condition

/-- A printable condition is read from its text, but for its double quotes. -/
theorem IsPrintable.exists_reread {condition : Condition} (printable : condition.IsPrintable) :
    ∃ reread, Filter.read condition.render = .ok reread ∧
      reread.unsourced = .leaf condition.written ∧ reread.render = condition.render := by
  have leaf : (Filter.leaf condition).IsPrintable := by
    simpa [Filter.IsPrintable, Filter.conditions] using printable
  obtain ⟨reread, found, told⟩ := leaf.exists_reread
  refine ⟨reread, found, told, ?_⟩
  rw [← Filter.render_unsourced, told]
  exact Filter.render_written (.leaf condition)

/-- A condition with a number that is not finite has no text that can be read. -/
theorem read_ne_ok_of_not_isFinite {condition : Condition} {value : Binary64}
    (word : isWord condition.field = true) (notReserved : condition.field ∉ Condition.reserved)
    (number : condition.operand.literal = .float value) (notFinite : value.isFinite = false)
    (filter : Filter) : Filter.read condition.render ≠ .ok filter := by
  obtain ⟨first, rest, text, separated, noEquals, notBlank, refused⟩ :=
    exists_words_of_not_isFinite notFinite
  have separated := separated_field_sign condition.comparison word notReserved noEquals separated
  apply Filter.read_ne_ok_of_refused separated _ notBlank refused
  rw [Word.textOf_cons, Word.textOf_cons, text]
  simp [render, number]

end Condition

end SearchQuery.Query

namespace SearchQuery.Field

open Number Text
open Query (Comparison Condition Filter Literal isWord)

/-! ## Typed values -/

/-- A valid value that was typed is printable, unless it is a number that is not finite. -/
theorem Kind.isPrintable_value_iff {kind : Kind} {raw : String}
    (valid : (kind.value raw).isValid = true) :
    (kind.value raw).IsPrintable ↔
      ∀ number, kind.value raw = .float number → number.isFinite = true := by
  cases kind with
  | int =>
      cases number : Integer.read? (trim raw.toList) with
      | none => simp [value, number, Literal.isValid] at valid
      | some number => simp [value, number, Literal.IsPrintable]
  | float =>
      cases number : Binary64.read? (trim raw.toList) with
      | none => simp [value, number, Literal.isValid] at valid
      | some number => simp [value, number, Literal.IsPrintable]
  | _ => simp [value, Literal.IsPrintable]

/-- Whether the name of the field can be written in a query. -/
def IsWritable (field : Field) : Prop :=
  isWord field.name = true ∧ field.name ∉ Condition.reserved

/-- Whether the names of all fields can be written in a query. -/
def Source.IsWritable (source : Source) : Prop :=
  ∀ name field, source.find? name = some field → field.IsWritable

namespace Catalogue

/-- A catalogue of fields whose names can be written is such a source. -/
theorem isWritable_toSource {catalogue : Catalogue}
    (writable : ∀ field ∈ catalogue.fields, field.IsWritable) :
    catalogue.toSource.IsWritable := by
  intro name field found
  exact writable field (List.mem_of_find?_eq_some found)

theorem isWritable_of_mem_builtInFields : ∀ field ∈ builtInFields, field.IsWritable := by
  unfold Field.IsWritable
  decide

end Catalogue

namespace Source

variable {source : Source} {name raw : String} {comparison : Comparison} {filter : Filter}

/-- A condition is composed of a known field, a comparison that its kind supports and a value
that is valid. -/
theorem compose_eq_ok_iff :
    source.compose name comparison raw = .ok filter ↔
      ∃ field, source.find? name = some field ∧ comparison ∈ source.comparisons field.kind ∧
        (field.kind.value raw).isValid = true ∧
        filter = .leaf (.ofLiteral field.name comparison (field.kind.value raw)) := by
  simp only [compose, lookup]
  cases source.find? name with
  | none => simp [bind, Except.bind]
  | some field =>
      have answer : (∃ other, some field = some other ∧
          comparison ∈ source.comparisons other.kind ∧ (other.kind.value raw).isValid = true ∧
          filter = .leaf (.ofLiteral other.name comparison (other.kind.value raw))) ↔
          comparison ∈ source.comparisons field.kind ∧ (field.kind.value raw).isValid = true ∧
            .leaf (.ofLiteral field.name comparison (field.kind.value raw)) = filter := by
        simp [@eq_comm _ filter]
      rw [answer]
      by_cases supported : comparison ∈ source.comparisons field.kind
      · cases valid : (field.kind.value raw).isValid <;>
          simp [bind, Except.bind, pure, Except.pure, throw, throwThe, MonadExceptOf.throw,
            supported, valid]
      · simp [bind, Except.bind, throw, throwThe, MonadExceptOf.throw, supported]

/-- A condition that is composed from typed text has the field, the comparison and the value of
the text.  Its query can be read exactly if the value is not a number that is not finite, and
then it is read as this one condition, without the double quotes in its value, and has the same
text again. -/
theorem exists_reread_of_compose (writable : source.IsWritable)
    (composed : source.compose name comparison raw = .ok filter) :
    ∃ field, source.find? name = some field ∧
      filter = .leaf (.ofLiteral field.name comparison (field.kind.value raw)) ∧
      ((∃ reread, Filter.read filter.render = .ok reread) ↔
        ∀ number, field.kind.value raw = .float number → number.isFinite = true) ∧
      ∀ reread, Filter.read filter.render = .ok reread →
        reread.unsourced = filter.written ∧ reread.render = filter.render := by
  rcases compose_eq_ok_iff.1 composed with ⟨field, found, -, valid, rfl⟩
  rcases writable name field found with ⟨word, notReserved⟩
  have printable_iff := Kind.isPrintable_value_iff valid
  refine ⟨field, found, rfl, ?_⟩
  by_cases isFinite : ∀ number, field.kind.value raw = .float number → number.isFinite = true
  · have printable : Condition.IsPrintable
        (.ofLiteral field.name comparison (field.kind.value raw)) :=
      ⟨word, notReserved, printable_iff.2 isFinite⟩
    obtain ⟨reread, foundAgain, told⟩ := printable.exists_reread
    refine ⟨⟨fun _ => isFinite, fun _ => ⟨reread, foundAgain⟩⟩, ?_⟩
    intro other foundOther
    cases foundAgain.symm.trans foundOther
    exact told
  · have unreadable := isFinite
    push Not at unreadable
    rcases unreadable with ⟨number, value_eq, notFinite⟩
    have refused := @Condition.read_ne_ok_of_not_isFinite
      (.ofLiteral field.name comparison (field.kind.value raw)) number word notReserved value_eq
      (Bool.eq_false_iff.2 notFinite)
    refine ⟨⟨?_, fun all => absurd all isFinite⟩, ?_⟩
    · rintro ⟨reread, foundAgain⟩
      exact absurd foundAgain (refused reread)
    · intro reread foundAgain
      exact absurd foundAgain (refused reread)

/-- The text `karl" or id!="x` does not end the literal early: its quotes are left out. -/
theorem exists_reread_of_compose_quotes :
    let source := (Catalogue.ofFields Catalogue.builtInFields).toSource
    let raw := "karl\" or id!=\"x"
    let filter : Filter := .leaf (.ofLiteral "actor" .equal (.string raw))
    source.IsWritable ∧ source.compose "actor" .equal raw = .ok filter ∧
      filter.render = "actor=\"karl or id!=x\"" ∧
      ∃ reread, Filter.read filter.render = .ok reread ∧
        reread.unsourced = .leaf (.ofLiteral "actor" .equal (.string "karl or id!=x")) := by
  intro source raw filter
  have writable : source.IsWritable :=
    Catalogue.isWritable_toSource Catalogue.isWritable_of_mem_builtInFields
  have composed : source.compose "actor" .equal raw = .ok filter := by decide +kernel
  rcases exists_reread_of_compose writable composed with ⟨field, found, -, readable, told⟩
  have keyword : field = ⟨"actor", .keyword⟩ := (Option.some.inj found).symm
  obtain ⟨reread, foundAgain⟩ := readable.2 (by simp [keyword, Kind.value])
  have written : filter.written = .leaf (.ofLiteral "actor" .equal (.string "karl or id!=x")) := by
    decide +kernel
  have text : filter.render = "actor=\"karl or id!=x\"" := by decide +kernel
  exact ⟨writable, composed, text, reread, foundAgain, (told reread foundAgain).1.trans written⟩

/-- A field for numbers takes `inf` as a value, and the condition is written as `score=inf`, in
which `inf` is no value. -/
theorem exists_compose_infinity :
    let source := (Catalogue.ofFields [⟨"score", .float⟩]).toSource
    source.IsWritable ∧ ∃ filter, source.compose "score" .equal "inf" = .ok filter ∧
      filter.render = "score=inf" ∧
      Filter.read filter.render = .error (.unexpectedValue ⟨.field, "inf", ⟨6, 9⟩⟩) := by
  intro source
  have writable : source.IsWritable := by
    apply Catalogue.isWritable_toSource
    unfold Field.IsWritable
    decide
  refine ⟨writable, .leaf (.ofLiteral "score" .equal (.float (.infinite false))), ?_⟩
  decide +kernel

end Source

end SearchQuery.Field
