import SearchQuery.Proofs.Canonical.Accepted
import SearchQuery.Proofs.Search.Terms
import SearchQuery.Search.Filter

/-!
# The query of a search text

A search text is compiled into a query: its terms state one condition each, and these are
joined by `and` from left to right.  A term that can be read from a text states a condition that
has no quote to lose (`Term.IsReadable.condition`), so the query is read back as that very chain
(`Term.exists_reread_of_isReadable`).  No part of the text is taken for an operator, a
parenthesis or the end of a value.

From the conditions the terms are found again (`Term.IsReadable.map_request_ofCondition?`).
Only the double quotes in patterns are lost, and a blank in front of all terms.
-/

namespace SearchQuery.Query.Filter

/-! ## Chains of conditions -/

theorem conditions_foldl (connective : Connective) (first : Filter) (rest : List Filter) :
    (rest.foldl (combine connective) first).conditions =
      first.conditions ++ rest.flatMap conditions := by
  induction rest generalizing first with
  | nil => simp
  | cons next rest ih => simp [ih, conditions]

theorem mapConditions_eq_self {change : Condition → Condition} {filter : Filter}
    (same : ∀ condition ∈ filter.conditions, change condition = condition) :
    filter.mapConditions change = filter := by
  induction filter with
  | leaf condition => exact congrArg leaf (same condition List.mem_cons_self)
  | combine connective left right ihLeft ihRight =>
      rcases List.forall_mem_append.1 same with ⟨sameLeft, sameRight⟩
      rw [mapConditions, ihLeft sameLeft, ihRight sameRight]

/-- The conditions that are joined, in their order. -/
theorem conditions_of_joinAll {connective : Connective} {conditions : List Condition}
    {filter : Filter} (joined : joinAll connective (conditions.map leaf) = some filter) :
    filter.conditions = conditions := by
  cases conditions with
  | nil => cases joined
  | cons first rest =>
      cases joined
      rw [conditions_foldl, List.flatMap_map]
      simp [Filter.conditions]

theorem isLeftNested_of_joinAll {connective : Connective} {conditions : List Condition}
    {filter : Filter} (joined : joinAll connective (conditions.map leaf) = some filter) :
    filter.IsLeftNested := by
  cases conditions with
  | nil => cases joined
  | cons first rest =>
      cases joined
      have leaves {operand : Filter} (mem : operand ∈ rest.map leaf) :
          operand.IsLeftNested ∧ operand.root? ≠ some connective := by
        rcases List.mem_map.1 mem with ⟨condition, -, rfl⟩
        exact ⟨trivial, by simp [root?]⟩
      exact isLeftNested_foldl trivial (fun _ mem => (leaves mem).1) fun _ mem => (leaves mem).2

/-- A chain of conditions that were not read, and that have no quote to lose, is read back from
its text as it is. -/
theorem exists_reread_of_joinAll {connective : Connective} {conditions : List Condition}
    {filter : Filter} (joined : joinAll connective (conditions.map leaf) = some filter)
    (printable : ∀ condition ∈ conditions, condition.IsPrintable)
    (noQuote : ∀ condition ∈ conditions, ¬ condition.operand.literal.HasQuote)
    (unsourced : ∀ condition ∈ conditions, condition.unsourced = condition) :
    ∃ reread, read filter.render = .ok reread ∧ reread.unsourced = filter ∧
      reread.same filter = true := by
  have told : ∀ condition ∈ conditions, condition.written = condition := by
    intro condition mem
    rw [Condition.written_eq_unsourced (noQuote condition mem), unsourced condition mem]
  rw [← conditions_of_joinAll joined] at printable noQuote told
  have written_eq : filter.written = filter := mapConditions_eq_self told
  rcases IsPrintable.exists_reread printable with ⟨reread, found, same⟩
  rw [leftNested_eq_self_iff.2 (isLeftNested_of_joinAll joined), written_eq] at same
  refine ⟨reread, found, same, ?_⟩
  calc
    reread.same filter = filter.written.same filter := by
      rw [← same_unsourced, same, written_eq]
    _ = true := by
      refine (same_written_iff printable).2 ?_
      rintro ⟨condition, mem, quote⟩
      exact noQuote condition mem quote

end SearchQuery.Query.Filter

namespace SearchQuery.Search.Term

open Query

/-! ## The conditions of terms -/

section Condition

variable {term : Term}

theorem IsReadable.literal (readable : term.IsReadable) :
    term.literal.IsPrintable ∧ ¬ term.literal.HasQuote := by
  have noQuote (text : String) : ¬ (Literal.string (Literal.withoutQuotes text)).HasQuote :=
    Literal.quote_not_mem_withoutQuotes text
  cases readable with
  | @pattern _ value absent =>
      have noSlash : '/' ∉ (Literal.withoutQuotes value).toList := by
        simpa [Literal.withoutQuotes] using absent
      exact ⟨noSlash, id⟩
  | _ => exact ⟨trivial, noQuote _⟩

/-- The condition of a term can be written, and nothing in it is lost. -/
theorem IsReadable.condition (readable : term.IsReadable) :
    term.condition.IsPrintable ∧ ¬ term.condition.operand.literal.HasQuote := by
  rcases readable.literal with ⟨printable, noQuote⟩
  have field : Query.isWord term.subject.name = true ∧
      term.subject.name ∉ Condition.reserved := by
    cases term.subject <;> decide
  exact ⟨⟨field.1, field.2, printable⟩, noQuote⟩

/-- What becomes of a term whose condition is taken for a term again. -/
theorem map_request_ofCondition? (term : Term) :
    (ofCondition? term.condition).map request =
      (spelling? term.subject term.comparison term.literal).map fun spelling =>
        (term.subject, spelling.1, term.comparison) := by
  simp only [ofCondition?, Term.condition, Condition.ofLiteral, Operand.ofLiteral,
    Subject.ofName?_name, Option.map_map]
  rfl

/-- Every term but a blank is spelled with its own value, but for the quotes in it. -/
theorem IsReadable.spelling? (readable : term.IsReadable) :
    (spelling? term.subject term.comparison term.literal).map Prod.fst =
      if term.tag = .blank then none else some (Literal.withoutQuotes term.value) := by
  cases readable with
  | @phrase _ subject value absent =>
      have noQuote := Literal.quote_not_mem_withoutQuotes value
      cases subject <;> simp [Term.spelling?, Term.literal, noQuote]
  | @pattern _ value absent =>
      have noSlash : '/' ∉ (Literal.withoutQuotes value).toList := by
        simpa [Literal.withoutQuotes] using absent
      simp [Term.spelling?, Term.literal, noSlash]
  | words many =>
      have told := Literal.withoutQuotes_eq_self_iff.2 (quote_not_mem_of_isWords many)
      simp [Term.spelling?, Term.literal, told, isBareText_of_isWords many]
  | @blank _ value spells =>
      have blank : isBareText (Literal.withoutQuotes value) = false := by
        apply isBareText_of_isBlank
        intro c mem
        rw [Literal.withoutQuotes, String.toList_ofList] at mem
        exact spells.isBlank_of_mem (List.mem_of_mem_filter mem)
      simp [Term.spelling?, Term.literal, blank]
  | @name _ subject _ sigil =>
      cases subject with
      | content => exact absurd rfl sigil
      | _ => simp [Term.spelling?, Term.literal]
  | @missing _ subject sigil =>
      cases subject with
      | content => exact absurd rfl sigil
      | _ => simp [Term.spelling?, Term.literal]

end Condition

/-! ## The query -/

section Query

variable {text : String} {terms : List Term}

/-- The query of terms of these forms is read back as their chain. -/
theorem exists_reread_of_isReadable (nonempty : terms ≠ [])
    (readable : ∀ term ∈ terms, term.IsReadable) :
    ∃ reread, Filter.read (queryAll terms) = .ok reread ∧
      filterAll? terms = some reread.unsourced ∧ reread.same reread.unsourced = true ∧
      reread.conditions.map Condition.unsourced = terms.map condition := by
  have leaves : Filter.joinAll .and ((terms.map condition).map .leaf) = filterAll? terms := by
    rw [filterAll?, List.map_map]
    rfl
  obtain ⟨chain, joined⟩ : ∃ chain, filterAll? terms = some chain := by
    obtain ⟨first, rest, rfl⟩ := List.exists_cons_of_ne_nil nonempty
    exact ⟨_, rfl⟩
  have conditions {Holds : Condition → Prop}
      (holds : ∀ term : Term, term.IsReadable → Holds term.condition) :
      ∀ condition ∈ terms.map Term.condition, Holds condition := by
    intro condition mem
    rcases List.mem_map.1 mem with ⟨term, termMem, rfl⟩
    exact holds term (readable term termMem)
  obtain ⟨reread, found, rfl, same⟩ := Filter.exists_reread_of_joinAll (leaves.trans joined)
    (conditions fun _ readable => readable.condition.1)
    (conditions fun _ readable => readable.condition.2) (conditions fun _ _ => rfl)
  refine ⟨reread, ?_, joined, same, ?_⟩
  · rw [queryAll, joined]
    exact found
  · rw [← Filter.conditions_mapConditions]
    exact Filter.conditions_of_joinAll (leaves.trans joined)

/-- A pattern stays a pattern, and everything else becomes a string. -/
theorem literal_eq (term : Term) :
    term.literal =
      if term.tag = .regexp then .regexp (Literal.withoutQuotes term.value)
      else .string (Literal.withoutQuotes term.value) := by
  rcases term with ⟨span, subject, value, comparison, tag⟩
  cases tag <;> rfl

/-- Whatever is typed, the query of its terms is read as a chain of `and` that is nested to the
left.  It has one condition for each term, in their order: on the field of the term, with its
comparison, and with its value as a pattern or a string without double quotes. -/
theorem exists_read_queryAll {first : Term} {rest : List Term}
    (found : readAll text = .ok (first :: rest)) :
    ∃ reread chain, Filter.read (queryAll (first :: rest)) = .ok reread ∧
      filterAll? (first :: rest) = some chain ∧
      reread.same chain = true ∧
      reread.unsourced = chain ∧
      chain = rest.foldl (fun front term => .combine .and front (.leaf term.condition))
        (.leaf first.condition) ∧
      reread.conditions.map Condition.unsourced = (first :: rest).map fun term =>
        .ofLiteral term.subject.name term.comparison
          (if term.tag = .regexp then .regexp (Literal.withoutQuotes term.value)
            else .string (Literal.withoutQuotes term.value)) := by
  obtain ⟨reread, read, joined, same, conditions⟩ := exists_reread_of_isReadable
    (List.cons_ne_nil first rest) (areReadable_of_readAll found).readable
  have chain_eq : reread.unsourced =
      rest.foldl (fun front term => .combine .and front (.leaf term.condition))
        (.leaf first.condition) := by
    simpa [filterAll?, Filter.joinAll, List.foldl_map] using joined.symm
  refine ⟨reread, reread.unsourced, read, joined, same, rfl, chain_eq, ?_⟩
  rw [conditions]
  apply List.map_congr_left
  intro term _
  rw [condition, literal_eq]

/-- Neither the parentheses and the `or` among the words, nor the quote in the pattern, nor the
phrase that is not closed change the chain. -/
theorem exists_read_queryAll_parentheses :
    let text := "a) or ( \"b) or c\" /d\"e/ @\"f"
    let words : Term := ⟨⟨0, 8⟩, .content, "a) or (", .fuzzy, .word⟩
    let phrase : Term := ⟨⟨8, 18⟩, .content, "b) or c", .equal, .quoted⟩
    let pattern : Term := ⟨⟨18, 24⟩, .content, "d\"e", .like, .regexp⟩
    let actor : Term := ⟨⟨24, 27⟩, .actor, "f", .equal, .quoted⟩
    let terms := [words, phrase, pattern, actor]
    readAll text = .ok terms ∧
      queryAll terms =
        "content~\"a) or (\" and content=\"b) or c\" and content~=/de/ and actor=\"f\"" ∧
      ∃ reread, Filter.read (queryAll terms) = .ok reread ∧
        reread.conditions.map Condition.unsourced =
          [.ofLiteral "content" .fuzzy (.string "a) or ("),
            .ofLiteral "content" .equal (.string "b) or c"),
            .ofLiteral "content" .like (.regexp "de"),
            .ofLiteral "actor" .equal (.string "f")] := by
  intro text words phrase pattern actor terms
  have found : readAll text = .ok terms := by decide +kernel
  have query : queryAll terms =
      "content~\"a) or (\" and content=\"b) or c\" and content~=/de/ and actor=\"f\"" := by
    decide +kernel
  obtain ⟨reread, -, read, -, -, -, -, conditions⟩ := exists_read_queryAll found
  exact ⟨found, query, reread, read, conditions.trans (by decide +kernel)⟩

end Query

/-! ## Back to the terms -/

section Recovery

variable {text : String} {terms : List Term}

/-- The terms without a blank in front of the others. -/
def dropLeadingBlank (terms : List Term) : List Term :=
  match terms with
  | [] => []
  | first :: rest => if first.tag = .blank then rest else first :: rest

/-- The terms of a filter do not depend on the tokens that its values were read from. -/
theorem ofFilter_eq_filterMap_unsourced (filter : Filter) :
    ofFilter filter = (filter.conditions.map Condition.unsourced).filterMap ofCondition? := by
  rw [ofFilter, List.filterMap_map]
  rfl

/-- All that becomes of a term: a blank is left out, and the value of any other term loses its
quotes. -/
theorem IsReadable.map_request_ofCondition? {term : Term} (readable : term.IsReadable) :
    (ofCondition? term.condition).map request =
      if term.tag = .blank then none
      else some (term.subject, Literal.withoutQuotes term.value, term.comparison) := by
  have value := readable.spelling?
  rw [Term.map_request_ofCondition?]
  split
  · next blank =>
    rw [if_pos blank, Option.map_eq_none_iff] at value
    rw [value, Option.map_none]
  · next notBlank =>
    rw [if_neg notBlank] at value
    rcases Option.map_eq_some_iff.1 value with ⟨spelling, found, value_eq⟩
    rw [found, Option.map_some, value_eq]

/-- A blank is left out wherever it stands, and it stands in front only. -/
theorem AreReadable.map_dropLeadingBlank {α : Type} (areReadable : AreReadable terms)
    (change : Term → α) :
    (dropLeadingBlank terms).map change =
      terms.filterMap fun term => if term.tag = .blank then none else some (change term) := by
  cases terms with
  | nil => rfl
  | cons first rest =>
      have later : (rest.filterMap fun term =>
          if term.tag = .blank then none else some (change term)) = rest.map change := by
        rw [← List.filterMap_eq_map]
        apply List.filterMap_congr
        intro term mem
        exact if_neg (areReadable.tag_ne_blank_of_mem term mem)
      by_cases blank : first.tag = .blank
      · simp [dropLeadingBlank, blank, later]
      · simp [dropLeadingBlank, blank, later]

/-- The query of a search text has all terms of the text again, in their order and as they
were, but for the double quotes in their values and a blank in front of all others. -/
theorem exists_ofFilter_read_queryAll (found : readAll text = .ok terms) (nonempty : terms ≠ []) :
    ∃ reread, Filter.read (queryAll terms) = .ok reread ∧
      (ofFilter reread).map request = (dropLeadingBlank terms).map fun term =>
        (term.subject, Literal.withoutQuotes term.value, term.comparison) := by
  have areReadable := areReadable_of_readAll found
  obtain ⟨reread, read, -, -, conditions⟩ :=
    exists_reread_of_isReadable nonempty areReadable.readable
  refine ⟨reread, read, ?_⟩
  rw [ofFilter_eq_filterMap_unsourced, conditions, List.filterMap_map, List.map_filterMap,
    areReadable.map_dropLeadingBlank]
  apply List.filterMap_congr
  intro term mem
  exact (areReadable.readable term mem).map_request_ofCondition?

/-- The blank in front is lost and so is the quote in the pattern.  The sigil that waits for its
text keeps the place of its term. -/
theorem exists_ofFilter_read_queryAll_leading_blank :
    let text := " \"a\" /b\"c/ d  e @"
    let blank : Term := ⟨⟨0, 1⟩, .content, " ", .fuzzy, .blank⟩
    let phrase : Term := ⟨⟨1, 5⟩, .content, "a", .equal, .quoted⟩
    let pattern : Term := ⟨⟨5, 11⟩, .content, "b\"c", .like, .regexp⟩
    let words : Term := ⟨⟨11, 16⟩, .content, "d e", .fuzzy, .word⟩
    let actor : Term := ⟨⟨16, 17⟩, .actor, "", .equal, .eof⟩
    let terms := [blank, phrase, pattern, words, actor]
    readAll text = .ok terms ∧ terms ≠ [] ∧
      ∃ reread, Filter.read (queryAll terms) = .ok reread ∧
        (ofFilter reread).map request =
          [(.content, "a", .equal), (.content, "bc", .like), (.content, "d e", .fuzzy),
            (.actor, "", .equal)] := by
  intro text blank phrase pattern words actor terms
  have found : readAll text = .ok terms := by decide +kernel
  obtain ⟨reread, read, requests⟩ := exists_ofFilter_read_queryAll found (List.cons_ne_nil _ _)
  exact ⟨found, List.cons_ne_nil _ _, reread, read, requests.trans (by decide +kernel)⟩

end Recovery

end SearchQuery.Search.Term
