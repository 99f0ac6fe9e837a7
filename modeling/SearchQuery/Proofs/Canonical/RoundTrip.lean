import SearchQuery.Proofs.Canonical.Words
import SearchQuery.Proofs.Grammar.Reader

/-!
# Reading the text of a filter

The words of a printable filter are a phrase of the grammar for its left nested form.  The
proof follows the filter.  At every connective that binds no tighter than its root, the
words are a chain whose phrases stand for the operands of the chain at the root
(`ReadsAs`); an operand that binds too loosely stands in parentheses, and the phrases of
the right side go on the chain of the left side.  So a filter is read back from its text as
its left nested form, without the double quotes in its strings (`read_render`).
-/

namespace SearchQuery.Query

open Text

/-! ## Significant words -/

/-- The words of a filter without the spaces between them. -/
def Filter.phrase (filter : Filter) : List Word :=
  filter.words.filter (·.tag != .blank)

theorem Literal.tag_ne_blank (literal : Literal) : literal.tag ≠ .blank := by
  cases literal <;> exact Tag.noConfusion

namespace Filter

theorem map_ofToken_significant (tokens : List (Token Tag)) :
    (significant tokens).map Word.ofToken =
      (tokens.map Word.ofToken).filter (·.tag != .blank) := by
  rw [List.filter_map]
  rfl

theorem phrase_leaf (condition : Condition) : (leaf condition).phrase = condition.words := by
  simp [phrase, words, Condition.words, condition.operand.literal.tag_ne_blank]

theorem phrase_combine (connective : Connective) (left right : Filter) :
    (combine connective left right).phrase =
      Word.parenthesize (left.precedence < connective.precedence) left.phrase ++
        .ofConnective connective ::
          Word.parenthesize (right.precedence < connective.precedence) right.phrase := by
  have inside (needed : Bool) (words : List Word) :
      (Word.parenthesize needed words).filter (·.tag != .blank) =
        Word.parenthesize needed (words.filter (·.tag != .blank)) := by
    cases needed <;> simp [Word.parenthesize]
  simp [phrase, words, inside, Word.space, Word.ofConnective]

end Filter

/-! ## Reading the words -/

/-- The words of a printable condition are read as the condition. -/
theorem exists_derives_condition {condition : Condition} (printable : condition.IsPrintable)
    {tokens : List (Token Tag)} (same : tokens.map Word.ofToken = condition.words) :
    ∃ filter, Derives .operand tokens filter ∧
      filter.unsourced = (Filter.leaf condition).written := by
  simp only [Condition.words, List.map_eq_cons_iff, List.map_eq_nil_iff, Word.ofToken,
    Word.mk.injEq] at same
  obtain ⟨field, -, rfl, ⟨fieldTag, fieldText⟩, sign, -, rfl, ⟨signTag, -⟩, value, -, rfl,
    ⟨valueTag, valueText⟩, rfl⟩ := same
  rcases Literal.exists_read?_render printable.literal with ⟨kind, tag_eq, reads⟩
  rw [tag_eq] at valueTag
  rw [← valueText] at reads
  refine ⟨_, .condition fieldTag signTag valueTag reads, ?_⟩
  rw [fieldText]
  rfl

/-- Words in parentheses are tokens in parentheses. -/
theorem exists_group {words : List Word} {tokens : List (Token Tag)}
    (same : tokens.map Word.ofToken = Word.parenthesize true words) :
    ∃ opening inner closing, tokens = opening :: (inner ++ [closing]) ∧
      opening.tag = .openParen ∧ closing.tag = .closeParen ∧
        inner.map Word.ofToken = words := by
  simp only [Word.parenthesize, if_true, List.map_eq_cons_iff, List.map_eq_append_iff,
    List.map_eq_nil_iff, Word.ofToken, Word.mk.injEq] at same
  obtain ⟨opening, -, rfl, ⟨openingTag, -⟩, inner, -, rfl, innerWords, closing, -, rfl,
    ⟨closingTag, -⟩, rfl⟩ := same
  exact ⟨opening, inner, closing, rfl, openingTag, closingTag, innerWords⟩

/-- The tokens are a chain of the connective whose phrases stand for the operands of the left
nested filter, as far as a text tells them. -/
def ReadsAs (connective : Connective) (tokens : List (Token Tag)) (filter : Filter) : Prop :=
  ∃ filters, Parts connective tokens filters ∧
    filters.map Filter.unsourced =
      (filter.leftNested.operands connective).map Filter.written

namespace ReadsAs

variable {connective : Connective} {tokens : List (Token Tag)} {filter : Filter}

/-- The whole chain stands for the whole filter. -/
theorem exists_derives (reads : ReadsAs connective tokens filter) :
    ∃ reread, Derives (.chain connective) tokens reread ∧
      reread.unsourced = filter.leftNested.written := by
  rcases reads with ⟨filters, parts, same⟩
  rcases parts.exists_derives with ⟨reread, joined, derives⟩
  refine ⟨reread, derives, Option.some.inj ?_⟩
  calc
    some reread.unsourced
        = Filter.joinAll connective (filters.map Filter.unsourced) := by
      rw [← Option.map_some, ← joined]
      exact (Filter.joinAll_mapConditions _ connective filters).symm
    _ = Filter.joinAll connective
          ((filter.leftNested.operands connective).map Filter.written) := by rw [same]
    _ = (Filter.joinAll connective (filter.leftNested.operands connective)).map
          Filter.written := Filter.joinAll_mapConditions _ connective _
    _ = some filter.leftNested.written := by
      rw [Filter.joinAll_operands connective (Filter.isLeftNested_leftNested filter)]
      rfl

/-- A filter with another root is a single phrase of the chain. -/
theorem of_part {reread : Filter} (part : Derives connective.part tokens reread)
    (same : reread.unsourced = filter.leftNested.written)
    (other : filter.root? ≠ some connective) : ReadsAs connective tokens filter := by
  refine ⟨[reread], .single part, ?_⟩
  rw [← Filter.root?_leftNested] at other
  rw [Filter.operands_of_root?_ne other, List.map_singleton, List.map_singleton, same]

/-- The phrases of both sides are the phrases of the whole. -/
theorem combine {word : Token Tag} {rest : List (Token Tag)} {left right : Filter}
    (readsLeft : ReadsAs connective tokens left)
    (wordTag : word.tag = .connective connective) (readsRight : ReadsAs connective rest right) :
    ReadsAs connective (tokens ++ word :: rest) (.combine connective left right) := by
  rcases readsLeft with ⟨filters, parts, same⟩
  rcases readsRight with ⟨others, more, sameMore⟩
  refine ⟨filters ++ others, parts.append wordTag more, ?_⟩
  rw [List.map_append, same, sameMore, Filter.operands_leftNested, Filter.operands_leftNested,
    Filter.operands_leftNested, Filter.operands_combine_self, List.map_append, List.map_append]

end ReadsAs

namespace Filter

theorem precedence_pos (filter : Filter) : Connective.or.precedence ≤ filter.precedence := by
  cases filter with
  | leaf condition => exact Nat.le_add_left 1 2
  | combine connective left right =>
      cases connective with
      | and => exact Nat.le_succ 1
      | or => exact Nat.le_refl 1

/-- The words of a side of a connective are a part of its chain, in parentheses if the side
binds less tightly. -/
theorem readsAs_side {filter : Filter} {connective : Connective}
    (reads : ∀ tokens : List (Token Tag), tokens.map Word.ofToken = filter.phrase →
      ∀ level : Connective, level.precedence ≤ filter.precedence → ReadsAs level tokens filter)
    {tokens : List (Token Tag)}
    (same : tokens.map Word.ofToken =
      Word.parenthesize (filter.precedence < connective.precedence) filter.phrase) :
    ReadsAs connective tokens filter := by
  by_cases loose : filter.precedence < connective.precedence
  · rw [decide_eq_true loose] at same
    obtain ⟨opening, inner, closing, rfl, openingTag, closingTag, innerWords⟩ :=
      exists_group same
    obtain ⟨reread, derives, told⟩ :=
      (reads inner innerWords .or filter.precedence_pos).exists_derives
    have group : Derives .operand (opening :: (inner ++ [closing])) reread :=
      .group openingTag closingTag derives
    have other : filter.root? ≠ some connective := by
      intro root
      cases filter with
      | leaf condition => cases root
      | combine word left right =>
          cases root
          exact Nat.lt_irrefl _ loose
    exact .of_part (group.part connective) told other
  · rw [decide_eq_false loose] at same
    exact reads tokens same connective (Nat.le_of_not_lt loose)

/-- The words of a printable filter are a chain of every connective that binds no tighter
than the filter. -/
theorem readsAs_of_phrase {filter : Filter} (printable : filter.IsPrintable)
    {tokens : List (Token Tag)} (same : tokens.map Word.ofToken = filter.phrase)
    {connective : Connective} (level : connective.precedence ≤ filter.precedence) :
    ReadsAs connective tokens filter := by
  induction filter generalizing tokens connective with
  | leaf condition =>
      rw [phrase_leaf] at same
      obtain ⟨reread, derives, told⟩ :=
        exists_derives_condition (printable condition List.mem_cons_self) same
      exact .of_part (derives.part connective) told (by simp [root?])
  | combine root left right ihLeft ihRight =>
      rcases isPrintable_combine_iff.1 printable with ⟨printableLeft, printableRight⟩
      rw [phrase_combine, List.map_eq_append_iff] at same
      rcases same with ⟨front, rest, rfl, frontWords, same⟩
      rcases List.map_eq_cons_iff.1 same with ⟨word, back, rfl, wordEq, backWords⟩
      have wordTag : word.tag = .connective root := congrArg Word.tag wordEq
      have readsLeft : ReadsAs root front left :=
        readsAs_side (fun _ words _ => ihLeft printableLeft words) frontWords
      have readsRight : ReadsAs root back right :=
        readsAs_side (fun _ words _ => ihRight printableRight words) backWords
      have whole := readsLeft.combine wordTag readsRight
      by_cases same : root = connective
      · subst same
        exact whole
      · cases root with
        | and =>
            cases connective with
            | and => exact absurd rfl same
            | or =>
                -- a chain of `and` is one phrase of a chain of `or`
                rcases whole.exists_derives with ⟨reread, derives, told⟩
                exact .of_part derives told (root?_combine_ne same left right)
        | or =>
            cases connective with
            | and => exact absurd level (Nat.not_succ_le_self 1)
            | or => exact absurd rfl same

/-- The text of a printable filter is read as its left nested form, as far as a text tells it. -/
theorem IsPrintable.exists_reread {filter : Filter} (printable : filter.IsPrintable) :
    ∃ reread, read filter.render = .ok reread ∧
      reread.unsourced = filter.leftNested.written := by
  rcases exists_tokens_render printable with ⟨scanned, scans, words⟩
  have phrase : (significant scanned).map Word.ofToken = filter.phrase := by
    rw [map_ofToken_significant, words, Filter.phrase]
  obtain ⟨reread, derives, told⟩ :=
    (readsAs_of_phrase printable phrase filter.precedence_pos).exists_derives
  exact ⟨reread, read_eq_ok_iff.2 ⟨scanned, scans, Reader.run_eq_ok_iff.2 derives⟩, told⟩

/-- Every printable filter is read back from its text.  What is read is the left nested form
of the filter, but for the double quotes in its strings: all its conditions are there in
their order, and its text is the same.  It equals the filter exactly when no right side has
the connective above it and no string has a double quote. -/
theorem read_render {filter : Filter} (printable : filter.IsPrintable) :
    ∃ reread, read filter.render = .ok reread ∧
      reread.unsourced = filter.leftNested.written ∧
      reread.conditions.map Condition.unsourced = filter.conditions.map Condition.written ∧
      (reread.same filter = true ↔ filter.IsLeftNested ∧ ¬ filter.HasQuote) ∧
      reread.render = filter.render := by
  rcases exists_tokens_render printable with ⟨scanned, scans, words⟩
  have phrase : (significant scanned).map Word.ofToken = filter.phrase := by
    rw [map_ofToken_significant, words, Filter.phrase]
  obtain ⟨reread, derives, told⟩ :=
    (readsAs_of_phrase printable phrase filter.precedence_pos).exists_derives
  have found : read filter.render = .ok reread :=
    read_eq_ok_iff.2 ⟨scanned, scans, Reader.run_eq_ok_iff.2 derives⟩
  have conditions_eq := congrArg conditions told
  rw [unsourced, written, conditions_mapConditions, conditions_mapConditions,
    conditions_leftNested] at conditions_eq
  have render_eq : reread.render = filter.render := by
    rw [← render_unsourced, told, render_written, render_leftNested]
  have equal_iff : reread.same filter = true ↔ filter.IsLeftNested ∧ ¬ filter.HasQuote := by
    rw [← same_unsourced, told]
    constructor
    · intro equal
      have nested : filter.IsLeftNested :=
        isLeftNested_of_same equal (isLeftNested_mapConditions (isLeftNested_leftNested filter))
      rw [leftNested_eq_self_iff.2 nested] at equal
      exact ⟨nested, (same_written_iff printable).1 equal⟩
    · rintro ⟨nested, noQuote⟩
      rw [leftNested_eq_self_iff.2 nested]
      exact (same_written_iff printable).2 noQuote
  exact ⟨reread, found, told, conditions_eq, equal_iff, render_eq⟩

/-- A chain of `and` nested to the right, with a quote in its string, is written as
`a="x" and b<-2 and (c~/z/ or d=true)`.  It is read back nested to the left and without the
quote, and its chain of `or` stays together. -/
theorem read_render_right_nested :
    let a := Condition.ofLiteral "a" .equal (.string "x\"")
    let b := Condition.ofLiteral "b" .less (.int (-2))
    let c := Condition.ofLiteral "c" .fuzzy (.regexp "z")
    let d := Condition.ofLiteral "d" .equal (.bool true)
    let choice := combine .or (leaf c) (leaf d)
    let filter := combine .and (leaf a) (combine .and (leaf b) choice)
    filter.IsPrintable ∧ ∃ reread, read filter.render = .ok reread ∧
      reread.unsourced = combine .and (combine .and (leaf a.written) (leaf b)) choice ∧
      reread.same filter = false := by
  intro a b c d choice filter
  have printable : filter.IsPrintable := by
    have noSlash : '/' ∉ "z".toList := by decide
    have printableA : a.IsPrintable := ⟨by decide, by decide, trivial⟩
    have printableB : b.IsPrintable := ⟨by decide, by decide, trivial⟩
    have printableC : c.IsPrintable := ⟨by decide, by decide, noSlash⟩
    have printableD : d.IsPrintable := ⟨by decide, by decide, trivial⟩
    intro condition mem
    simp only [filter, choice, conditions, List.cons_append, List.nil_append, List.mem_cons,
      List.not_mem_nil, or_false] at mem
    rcases mem with rfl | rfl | rfl | rfl <;> assumption
  rcases read_render printable with ⟨reread, found, told, -, equal_iff, -⟩
  have differs : reread.same filter = false := by
    apply Bool.eq_false_iff.2
    intro equal
    exact (equal_iff.1 equal).1.2.2 rfl
  exact ⟨printable, reread, found, told, differs⟩

end Filter

end SearchQuery.Query
