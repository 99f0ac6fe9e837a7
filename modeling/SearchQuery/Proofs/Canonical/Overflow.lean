import SearchQuery.Proofs.Canonical.Accepted
import SearchQuery.Proofs.Tree.Agreement
import SearchQuery.Proofs.Tree.Outline

/-!
# An infinity has no text

An infinity is written as a word that stands for no value, with a minus sign in front of it if
it is negative, and no query can have these words behind a comparison.  So a filter that is
read from a query is read back from its text exactly when no numeral of the query overflows
(`Filter.exists_reread_of_read`).
-/

namespace SearchQuery.Query

open Number Text

/-! ## The words of an infinity -/

/-- The words as which the text of a literal is scanned. -/
def Literal.shown : Literal → List Word
  | float (.infinite false) => [⟨.field, "inf"⟩]
  | float (.infinite true) => [⟨.literal .int, "-"⟩, ⟨.field, "inf"⟩]
  | literal => [⟨literal.tag, literal.render⟩]

/-- The words as which the text of a condition is scanned. -/
def Condition.shown (condition : Condition) : List Word :=
  ⟨.field, condition.field⟩ ::
    ⟨.comparison condition.comparison, condition.comparison.symbol⟩ ::
      condition.operand.literal.shown

namespace Literal

theorem shown_of_isPrintable {literal : Literal} (printable : literal.IsPrintable) :
    literal.shown = [⟨literal.tag, literal.render⟩] := by
  cases literal with
  | float value =>
      cases value with
      | finite => rfl
      | _ => cases printable
  | _ => rfl

theorem textOf_shown (literal : Literal) : Word.textOf literal.shown = literal.render.toList := by
  have infinite : Word.textOf (float (.infinite false)).shown =
      (float (.infinite false)).render.toList := by decide +kernel
  have negative : Word.textOf (float (.infinite true)).shown =
      (float (.infinite true)).render.toList := by decide +kernel
  cases literal with
  | float value =>
      cases value with
      | infinite sign => cases sign <;> assumption
      | _ => simp [shown]
  | _ => simp [shown]

/-- Behind a sign of comparison the words of a literal do not run together. -/
theorem separated_shown {literal : Literal}
    (accepted : literal.IsPrintable ∨ ∃ negative, literal = float (.infinite negative))
    {rest : List Char} (ends : EndsFilter rest) :
    Word.Separated literal.shown rest ∧
      StartsOutside (· == '=') (Word.textOf literal.shown ++ rest) := by
  rcases accepted with printable | ⟨negative, rfl⟩
  · have spells := spells_render printable
    rcases exists_read?_render printable with ⟨kind, tag_eq, -⟩
    have notEqual : literal.tag ≠ .comparison .equal := by simp [tag_eq]
    rw [shown_of_isPrintable printable]
    refine ⟨⟨spells, ends.stops literal.tag_ne_blank, trivial⟩, ?_⟩
    simpa using spells.startsOutside_equals notEqual rest
  · have word : Word.Separated [⟨.field, "inf"⟩] rest :=
      ⟨@spells_of_isWord "inf" rfl, ends.stops Tag.noConfusion, trivial⟩
    cases negative with
    | false => exact ⟨word, startsOutside_cons_iff.2 rfl⟩
    | true =>
        have minus : Spells (.literal .int) "-".toList := @Spells.int '-' [] rfl (by simp)
        exact ⟨⟨minus, startsOutside_cons_iff.2 rfl, word⟩, startsOutside_cons_iff.2 rfl⟩

end Literal

namespace Condition

variable {condition : Condition}

theorem textOf_shown (condition : Condition) :
    Word.textOf condition.shown = condition.render.toList := by
  simp [shown, render, Literal.textOf_shown]

theorem IsAccepted.separated (accepted : condition.IsAccepted) {rest : List Char}
    (ends : EndsFilter rest) : Word.Separated condition.shown rest := by
  rcases Literal.separated_shown accepted.literal ends with ⟨separated, noEquals⟩
  exact separated_field_sign condition.comparison accepted.field_isWord
    accepted.field_not_reserved noEquals separated

end Condition

namespace Filter

/-- The words as which the text of a filter is scanned. -/
def shown : Filter → List Word
  | leaf condition => condition.shown
  | combine connective left right =>
      Word.parenthesize (left.precedence < connective.precedence) left.shown ++
        [.space, .ofConnective connective, .space] ++
        Word.parenthesize (right.precedence < connective.precedence) right.shown

theorem textOf_shown (filter : Filter) : Word.textOf filter.shown = filter.render.toList := by
  induction filter with
  | leaf condition => exact Condition.textOf_shown condition
  | combine connective left right ihLeft ihRight =>
      simp [shown, render, Word.textOf_parenthesize ihLeft, Word.textOf_parenthesize ihRight,
        Word.space, Word.ofConnective]

theorem isAccepted_combine_iff {connective : Connective} {left right : Filter} :
    (combine connective left right).IsAccepted ↔ left.IsAccepted ∧ right.IsAccepted :=
  List.forall_mem_append

namespace IsAccepted

variable {filter : Filter}

theorem startsOutside_blank (accepted : filter.IsAccepted) (rest : List Char) :
    StartsOutside isBlank (Word.textOf filter.shown ++ rest) := by
  induction filter generalizing rest with
  | leaf condition =>
      have word := (accepted condition List.mem_cons_self).field_isWord
      exact Condition.startsOutside_blank_field word _ rest
  | combine connective left right ihLeft ihRight =>
      rcases isAccepted_combine_iff.1 accepted with ⟨acceptedLeft, -⟩
      simp only [shown, Word.textOf_append, List.append_assoc]
      exact startsOutside_blank_parenthesize (ihLeft acceptedLeft)

/-- The words do not run together. -/
theorem separated (accepted : filter.IsAccepted) {rest : List Char}
    (ends : EndsFilter rest) : Word.Separated filter.shown rest := by
  induction filter generalizing rest with
  | leaf condition => exact (accepted condition List.mem_cons_self).separated ends
  | combine connective left right ihLeft ihRight =>
      rcases isAccepted_combine_iff.1 accepted with ⟨acceptedLeft, acceptedRight⟩
      exact separated_combine (fun _ => ihLeft acceptedLeft) (fun _ => ihRight acceptedRight)
        acceptedRight.startsOutside_blank ends

/-- The text is scanned as these words. -/
theorem tagsOf_render (accepted : filter.IsAccepted) :
    tagsOf filter.render = filter.shown.map Word.tag := by
  rcases exists_tokens_of_separated (accepted.separated endsFilter_nil)
    (textOf_shown filter).symm with ⟨scanned, scans, words⟩
  rcases tokens_eq_ok_iff.1 scans with ⟨-, rfl⟩
  rw [← words, List.map_map, List.map_map]
  rfl

end IsAccepted

/-! ## Reading the words -/

/-- Where an operand is wanted, the words are taken as a whole operand if they are readable,
and are not taken otherwise. -/
def TakenIff (readable : Prop) (words : List Word) : Prop :=
  ∀ depth after, Outline.run? ⟨.operand, depth⟩ (words.map Word.tag) = some after ↔
    readable ∧ after = ⟨.connective, depth⟩

theorem TakenIff.parenthesize {readable : Prop} {words : List Word}
    (taken : TakenIff readable words) (needed : Bool) :
    TakenIff readable (Word.parenthesize needed words) := by
  cases needed with
  | false => exact taken
  | true =>
      intro depth after
      have run : Outline.run? ⟨.operand, depth⟩
          ((Word.parenthesize true words).map Word.tag) =
            (Outline.run? ⟨.operand, depth + 1⟩ (words.map Word.tag)).bind
              fun next => next.run? [.closeParen] := by
        simp [Word.parenthesize, Outline.step?, Outline.run?_append]
      rw [run, Option.bind_eq_some_iff]
      constructor
      · rintro ⟨middle, inside, closed⟩
        rcases (taken _ _).1 inside with ⟨holds, rfl⟩
        cases closed
        exact ⟨holds, rfl⟩
      · rintro ⟨holds, rfl⟩
        exact ⟨_, (taken _ _).2 ⟨holds, rfl⟩, rfl⟩

theorem TakenIff.combine {first second : Prop} {left right : List Word}
    (takenLeft : TakenIff first left) (takenRight : TakenIff second right)
    (connective : Connective) :
    TakenIff (first ∧ second) (left ++ [.space, .ofConnective connective, .space] ++ right) := by
  intro depth after
  rw [List.map_append, List.map_append, List.append_assoc, Outline.run?_append,
    Option.bind_eq_some_iff]
  constructor
  · rintro ⟨middle, before, behind⟩
    rcases (takenLeft _ _).1 before with ⟨holds, rfl⟩
    rcases (takenRight depth after).1 behind with ⟨holdsRight, rfl⟩
    exact ⟨⟨holds, holdsRight⟩, rfl⟩
  · rintro ⟨⟨holds, holdsRight⟩, rfl⟩
    exact ⟨_, (takenLeft _ _).2 ⟨holds, rfl⟩, (takenRight depth _).2 ⟨holdsRight, rfl⟩⟩

theorem takenIff_condition {condition : Condition} (accepted : condition.IsAccepted) :
    TakenIff condition.IsPrintable condition.shown := by
  intro depth after
  rcases accepted.literal with printable | ⟨negative, infinite⟩
  · have whole : condition.IsPrintable :=
      ⟨accepted.field_isWord, accepted.field_not_reserved, printable⟩
    rcases Literal.exists_read?_render printable with ⟨kind, tag_eq, -⟩
    simp [Condition.shown, Literal.shown_of_isPrintable printable, tag_eq, Outline.step?, whole,
      eq_comm]
  · have notPrintable : ¬ condition.IsPrintable := by
      intro printable
      have isFinite := printable.literal
      rw [infinite] at isFinite
      cases isFinite
    cases negative <;>
      simp [Condition.shown, Literal.shown, infinite, Outline.step?, notPrintable]

/-- The words of a filter are taken exactly if none of them stands for an infinity. -/
theorem takenIff_filter {filter : Filter} (accepted : filter.IsAccepted) :
    TakenIff filter.IsPrintable filter.shown := by
  induction filter with
  | leaf condition =>
      have taken := takenIff_condition (accepted condition List.mem_cons_self)
      have single : (leaf condition).IsPrintable ↔ condition.IsPrintable := by
        simp [IsPrintable, conditions]
      rw [single]
      exact taken
  | combine connective left right ihLeft ihRight =>
      rcases isAccepted_combine_iff.1 accepted with ⟨acceptedLeft, acceptedRight⟩
      rw [isPrintable_combine_iff]
      exact ((ihLeft acceptedLeft).parenthesize _).combine
        ((ihRight acceptedRight).parenthesize _) connective

/-- An accepted filter is printable if its text is read at all. -/
theorem IsAccepted.isPrintable_of_read {filter reread : Filter} (accepted : filter.IsAccepted)
    (found : read filter.render = .ok reread) : filter.IsPrintable := by
  rcases exists_tree_of_read found with ⟨tree, foundTree, -⟩
  have ran := SyntaxTree.exists_read_iff.1 ⟨tree, foundTree⟩
  rw [accepted.tagsOf_render] at ran
  exact ((takenIff_filter accepted 0 .done).1 ran).1

/-! ## Reading a text again -/

/-- What is read from a query can be written, but for numerals that overflow: a field is a word
that is not reserved, and a literal has no delimiter of its own in it.  The text of the filter
is read again exactly when no numeral of the query overflows, and then as the filter with all
its chains nested to the left, which has the same text. -/
theorem exists_reread_of_read {query : String} {filter : Filter}
    (found : read query = .ok filter) :
    filter.IsAccepted ∧
      (filter.IsPrintable ↔ ∀ lexeme ∈ lexemes query, ¬ Overflows lexeme.token) ∧
      ((∃ reread, read filter.render = .ok reread) ↔
        ∀ lexeme ∈ lexemes query, ¬ Overflows lexeme.token) ∧
      ∀ reread, read filter.render = .ok reread →
        reread.unsourced = filter.leftNested.unsourced ∧ reread.render = filter.render := by
  have accepted := isAccepted_of_read found
  have printable_iff := isPrintable_iff_of_read found
  refine ⟨accepted, printable_iff, ?_, ?_⟩
  · rw [← printable_iff]
    constructor
    · rintro ⟨reread, foundAgain⟩
      exact accepted.isPrintable_of_read foundAgain
    · intro printable
      rcases exists_reread_of_isPrintable printable accepted with ⟨reread, foundAgain, -⟩
      exact ⟨reread, foundAgain⟩
  · intro reread foundAgain
    have printable := accepted.isPrintable_of_read foundAgain
    obtain ⟨other, foundOther, told⟩ := exists_reread_of_isPrintable printable accepted
    cases foundAgain.symm.trans foundOther
    exact told

/-- The group in `a="x" and (b=-2 and c~/z/)` is gone when the filter is read again. -/
theorem exists_reread_of_read_group :
    let query := "a=\"x\" and (b=-2 and c~/z/)"
    let a : Condition := ⟨"a", .equal, ⟨.string "x", some ⟨.literal .string, "\"x\"", ⟨2, 5⟩⟩⟩⟩
    let b : Condition := ⟨"b", .equal, ⟨.int (-2), some ⟨.literal .int, "-2", ⟨13, 15⟩⟩⟩⟩
    let c : Condition := ⟨"c", .fuzzy, ⟨.regexp "z", some ⟨.literal .regexp, "/z/", ⟨22, 25⟩⟩⟩⟩
    let filter := combine .and (leaf a) (combine .and (leaf b) (leaf c))
    read query = .ok filter ∧ ∃ reread, read filter.render = .ok reread ∧
      reread.unsourced =
        (combine .and (combine .and (leaf a) (leaf b)) (leaf c)).unsourced := by
  intro query a b c filter
  have found : read query = .ok filter := by decide +kernel
  have noFloat : (lexemes query).all (·.token.tag != .literal .float) = true := by decide +kernel
  have bounded : ∀ lexeme ∈ lexemes query, ¬ Overflows lexeme.token := by
    rintro lexeme mem ⟨tag, -⟩
    simpa [tag] using List.all_eq_true.1 noFloat lexeme mem
  obtain ⟨-, -, reread_iff, told⟩ := exists_reread_of_read found
  obtain ⟨reread, foundAgain⟩ := reread_iff.2 bounded
  exact ⟨found, reread, foundAgain, (told reread foundAgain).1⟩

/-- A condition alone is read as such. -/
theorem exists_read_leaf {field : String} {sign : Comparison} {kind : LiteralKind}
    {text : String} {literal : Literal} (word : isWord field = true)
    (notReserved : field ∉ Condition.reserved) (spells : Spells (.literal kind) text.toList)
    (reads : Literal.read? kind text = some literal) :
    ∃ source, read (field ++ sign.symbol ++ text) =
      .ok (leaf ⟨field, sign, ⟨literal, some source⟩⟩) := by
  have noEquals := spells.startsOutside_equals Tag.noConfusion []
  have separated : Word.Separated
      [⟨.field, field⟩, ⟨.comparison sign, sign.symbol⟩, ⟨.literal kind, text⟩] [] :=
    Condition.separated_field_sign sign word notReserved (by simpa using noEquals)
      ⟨spells, startsOutside_nil _, trivial⟩
  obtain ⟨scanned, scans, words⟩ := @exists_tokens_of_separated _ separated
    (field ++ sign.symbol ++ text) (by simp)
  simp only [List.map_eq_cons_iff, List.map_eq_nil_iff, Word.ofToken, Word.mk.injEq] at words
  obtain ⟨name, -, rfl, ⟨nameTag, rfl⟩, comparison, -, rfl, ⟨comparisonTag, -⟩, value, -, rfl,
    ⟨valueTag, rfl⟩, rfl⟩ := words
  have derives : Derives (.chain .or) [name, comparison, value]
      (leaf ⟨name.lexeme, sign, ⟨literal, some value⟩⟩) :=
    ((Derives.condition nameTag comparisonTag valueTag reads).part .or).single
  have kept : significant [name, comparison, value] = [name, comparison, value] := by
    simp [significant, nameTag, comparisonTag, valueTag]
  rw [← kept] at derives
  exact ⟨value, read_eq_ok_iff.2 ⟨_, scans, Reader.run_eq_ok_iff.2 derives⟩⟩

/-- The numeral of 309 nines and a point is read as an infinity.  The text of the filter is
`a=inf`, in which `inf` is no value. -/
theorem exists_read_of_overflow :
    let numeral := String.ofList (List.replicate 309 '9' ++ ['.'])
    ∃ filter, read ("a=" ++ numeral) = .ok filter ∧ ¬ filter.IsPrintable ∧
      filter.render = "a=inf" ∧
      read filter.render = .error (.unexpectedValue ⟨.field, "inf", ⟨2, 5⟩⟩) := by
  intro numeral
  have overflow : Binary64.read? (List.replicate 309 '9' ++ ['.']) =
      some (.infinite false) := by decide +kernel
  have spells : Spells (.literal .float) numeral.toList := by
    rw [String.toList_ofList]
    exact @Spells.float '9' (List.replicate 308 '9') [] rfl
      (fun c mem => List.eq_of_mem_replicate mem ▸ rfl) (by simp)
  have reads : Literal.read? .float numeral = some (.float (.infinite false)) := by
    rw [Literal.read?_eq_some_float_iff, String.toList_ofList]
    exact ⟨rfl, overflow⟩
  obtain ⟨source, found⟩ := @exists_read_leaf "a" .equal _ _ _ rfl (by decide) spells reads
  have text : (leaf ⟨"a", .equal, ⟨.float (.infinite false), some source⟩⟩).render = "a=inf" := rfl
  refine ⟨_, found, ?_, text, ?_⟩
  · intro printable
    cases (printable _ List.mem_cons_self).literal
  · rw [text]
    decide +kernel

end Filter

end SearchQuery.Query
