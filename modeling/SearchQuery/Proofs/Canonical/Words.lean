import SearchQuery.Proofs.Canonical.Content

/-!
# The words of a filter

The text of a filter is a list of words written side by side (`textOf_words`).  No word of a
printable filter runs together with the next one, so the scan of the text finds exactly
these words (`exists_tokens_render`).
-/

namespace SearchQuery.Query

open Text

namespace Word

/-- The space round a connective. -/
def space : Word :=
  ⟨.blank, " "⟩

/-- The word of a connective. -/
def ofConnective (connective : Connective) : Word :=
  ⟨.connective connective, connective.word⟩

/-- Words in parentheses, if they are needed. -/
def parenthesize (needed : Bool) (words : List Word) : List Word :=
  if needed then ⟨.openParen, "("⟩ :: (words ++ [⟨.closeParen, ")"⟩]) else words

theorem textOf_parenthesize {needed : Bool} {words : List Word} {text : String}
    (same : textOf words = text.toList) :
    textOf (parenthesize needed words) = (Filter.parenthesize needed text).toList := by
  cases needed with
  | false => exact same
  | true => simp [parenthesize, Filter.parenthesize, same]

end Word

/-- The words of a condition. -/
def Condition.words (condition : Condition) : List Word :=
  [⟨.field, condition.field⟩, ⟨.comparison condition.comparison, condition.comparison.symbol⟩,
    ⟨condition.operand.literal.tag, condition.operand.literal.render⟩]

namespace Filter

/-- The words of a filter. -/
def words : Filter → List Word
  | leaf condition => condition.words
  | combine connective left right =>
      Word.parenthesize (left.precedence < connective.precedence) left.words ++
        [.space, .ofConnective connective, .space] ++
        Word.parenthesize (right.precedence < connective.precedence) right.words

/-- The words, written side by side, are the text. -/
theorem textOf_words (filter : Filter) : Word.textOf filter.words = filter.render.toList := by
  induction filter with
  | leaf condition => simp [words, Condition.words, render, Condition.render]
  | combine connective left right ihLeft ihRight =>
      simp [words, render, Word.textOf_parenthesize ihLeft, Word.textOf_parenthesize ihRight,
        Word.space, Word.ofConnective]

end Filter

/-! ## Words do not run together -/

/-- What may stand behind a filter in a text: nothing, a space or a closing parenthesis. -/
def EndsFilter (rest : List Char) : Prop :=
  ∀ c ∈ rest.head?, c = ' ' ∨ c = ')'

theorem EndsFilter.stops {rest : List Char} (ends : EndsFilter rest) {tag : Tag}
    (notBlank : tag ≠ .blank) : StartsOutside tag.goesOn rest := by
  intro c mem
  rcases ends c mem with rfl | rfl
  · exact Tag.goesOn_space notBlank
  · exact Tag.goesOn_closeParen tag

theorem endsFilter_nil : EndsFilter [] := by
  simp [EndsFilter]

theorem endsFilter_space (rest : List Char) : EndsFilter (' ' :: rest) := by
  simp [EndsFilter]

theorem endsFilter_closeParen (rest : List Char) : EndsFilter (')' :: rest) := by
  simp [EndsFilter]

/-- A sign of comparison goes on with an equals sign, if at all. -/
theorem Tag.goesOn_comparison {sign : Comparison} {c : Char}
    (goesOn : (Tag.comparison sign).goesOn c = true) : c = '=' := by
  cases sign <;> simp_all [Tag.goesOn]

/-- The characters of a class that leaves the equals sign out. -/
theorem startsOutside_equals_cons {isIn : Char → Bool} {c : Char} (mem : isIn c = true)
    (outside : isIn '=' = false) (rest : List Char) :
    StartsOutside (· == '=') (c :: rest) := by
  apply startsOutside_cons_iff.2
  apply beq_false_of_ne
  intro eq
  rw [eq, outside] at mem
  cases mem

/-- No token but the sign itself begins with an equals sign. -/
theorem Spells.startsOutside_equals {tag : Tag} {text : List Char} (spells : Spells tag text)
    (notEqual : tag ≠ .comparison .equal) (rest : List Char) :
    StartsOutside (· == '=') (text ++ rest) := by
  cases spells with
  | comparison sign =>
      cases sign with
      | equal => exact absurd rfl notEqual
      | _ => exact startsOutside_cons_iff.2 rfl
  | blank firstBlank => exact startsOutside_equals_cons firstBlank rfl _
  | word starts => exact startsOutside_equals_cons starts rfl _
  | @int first _ starts =>
      exact @startsOutside_equals_cons (fun c => c.isDigit || c == '-') first starts rfl _
  | @float first _ _ starts =>
      exact @startsOutside_equals_cons (fun c => c.isDigit || c == '-') first starts rfl _
  | _ => exact startsOutside_cons_iff.2 rfl

namespace Condition

variable {condition : Condition}

/-- A name that is not reserved spells a field. -/
theorem spells_field {field : String} (word : isWord field = true)
    (notReserved : field ∉ reserved) : Spells .field field.toList := by
  have field_eq : Tag.ofWord field = .field := Tag.ofWord_eq_field_iff.2 notReserved
  rw [← field_eq]
  exact spells_of_isWord word

/-- A field in front of other words begins with no blank. -/
theorem startsOutside_blank_field {field : String} (word : isWord field = true)
    (words : List Word) (rest : List Char) :
    StartsOutside isBlank (Word.textOf (⟨.field, field⟩ :: words) ++ rest) := by
  rcases exists_cons_of_isWord word with ⟨first, tail, text, starts, -⟩
  rw [Word.textOf_cons, text]
  exact startsOutside_cons_iff.2 (isBlank_of_isWordStart starts)

/-- A field and a sign of comparison can stand in front of a value that does not begin with an
equals sign. -/
theorem separated_field_sign {field : String} (sign : Comparison) {value : List Word}
    {rest : List Char} (word : isWord field = true) (notReserved : field ∉ reserved)
    (noEquals : StartsOutside (· == '=') (Word.textOf value ++ rest))
    (separated : Word.Separated value rest) :
    Word.Separated (⟨.field, field⟩ :: ⟨.comparison sign, sign.symbol⟩ :: value) rest := by
  constructor
  · exact spells_field word notReserved
  constructor
  · cases sign <;> exact startsOutside_cons_iff.2 rfl
  constructor
  · exact .comparison sign
  constructor
  · intro c mem
    apply Bool.eq_false_iff.2
    intro goesOn
    have outside := noEquals c mem
    simp [Tag.goesOn_comparison goesOn] at outside
  · exact separated

/-- The three words of a printable condition do not run together. -/
theorem IsPrintable.separated (printable : condition.IsPrintable) {rest : List Char}
    (ends : EndsFilter rest) : Word.Separated condition.words rest := by
  have spells := Literal.spells_render printable.literal
  rcases Literal.exists_read?_render printable.literal with ⟨kind, tag_eq, -⟩
  have notBlank : condition.operand.literal.tag ≠ .blank := by simp [tag_eq]
  have notEqual : condition.operand.literal.tag ≠ .comparison .equal := by simp [tag_eq]
  have noEquals := spells.startsOutside_equals notEqual rest
  exact separated_field_sign condition.comparison printable.field_isWord
    printable.field_not_reserved (by simpa using noEquals)
    ⟨spells, ends.stops notBlank, trivial⟩

end Condition

namespace Filter

theorem startsOutside_blank_parenthesize {needed : Bool} {words : List Word}
    {rest : List Char} (outside : ∀ rest, StartsOutside isBlank (Word.textOf words ++ rest)) :
    StartsOutside isBlank (Word.textOf (Word.parenthesize needed words) ++ rest) := by
  cases needed with
  | false => exact outside rest
  | true => exact startsOutside_cons_iff.2 rfl

theorem separated_parenthesize {needed : Bool} {words : List Word} {rest : List Char}
    (separated : ∀ rest, EndsFilter rest → Word.Separated words rest)
    (ends : EndsFilter rest) : Word.Separated (Word.parenthesize needed words) rest := by
  cases needed with
  | false => exact separated rest ends
  | true =>
      have inside := separated _ (endsFilter_closeParen rest)
      have closing : Word.Separated [⟨.closeParen, ")"⟩] rest :=
        ⟨.closeParen, fun _ _ => rfl, trivial⟩
      exact ⟨.openParen, fun _ _ => rfl, Word.separated_append_iff.2 ⟨inside, closing⟩⟩

theorem separated_connective (connective : Connective) {rest : List Char}
    (outside : StartsOutside isBlank rest) :
    Word.Separated [.space, .ofConnective connective, .space] rest := by
  have blank : Spells .blank [' '] := .blank rfl (by simp)
  have word : Spells (.connective connective) connective.word.toList := by
    cases connective with
    | and => exact @spells_of_isWord "and" rfl
    | or => exact @spells_of_isWord "or" rfl
  have behind : Word.Separated [.ofConnective connective, .space] rest :=
    ⟨word, startsOutside_cons_iff.2 rfl, blank, outside, trivial⟩
  constructor
  · exact blank
  constructor
  · cases connective <;> exact startsOutside_cons_iff.2 rfl
  · exact behind

/-- The words of two filters with a connective between them do not run together. -/
theorem separated_combine {connective : Connective} {inner outer : Bool}
    {left right : List Word} {rest : List Char}
    (separatedLeft : ∀ rest, EndsFilter rest → Word.Separated left rest)
    (separatedRight : ∀ rest, EndsFilter rest → Word.Separated right rest)
    (outside : ∀ rest, StartsOutside isBlank (Word.textOf right ++ rest))
    (ends : EndsFilter rest) :
    Word.Separated (Word.parenthesize inner left ++ [.space, .ofConnective connective, .space] ++
      Word.parenthesize outer right) rest := by
  rw [Word.separated_append_iff, Word.separated_append_iff]
  constructor
  · constructor
    · exact separated_parenthesize separatedLeft (endsFilter_space _)
    · exact separated_connective connective (startsOutside_blank_parenthesize outside)
  · exact separated_parenthesize separatedRight ends

/-- No filter begins with a blank character. -/
theorem IsPrintable.startsOutside_blank {filter : Filter} (printable : filter.IsPrintable)
    (rest : List Char) : StartsOutside isBlank (Word.textOf filter.words ++ rest) := by
  induction filter generalizing rest with
  | leaf condition =>
      have word := (printable condition List.mem_cons_self).field_isWord
      exact Condition.startsOutside_blank_field word _ rest
  | combine connective left right ihLeft ihRight =>
      rcases isPrintable_combine_iff.1 printable with ⟨printableLeft, -⟩
      simp only [words, Word.textOf_append, List.append_assoc]
      exact startsOutside_blank_parenthesize (ihLeft printableLeft)

/-- The words of a printable filter do not run together. -/
theorem IsPrintable.separated {filter : Filter} (printable : filter.IsPrintable)
    {rest : List Char} (ends : EndsFilter rest) : Word.Separated filter.words rest := by
  induction filter generalizing rest with
  | leaf condition => exact (printable condition List.mem_cons_self).separated ends
  | combine connective left right ihLeft ihRight =>
      rcases isPrintable_combine_iff.1 printable with ⟨printableLeft, printableRight⟩
      exact separated_combine (fun _ => ihLeft printableLeft) (fun _ => ihRight printableRight)
        printableRight.startsOutside_blank ends

/-- The text of a printable filter is scanned without a fault, one token for each word. -/
theorem exists_tokens_render {filter : Filter} (printable : filter.IsPrintable) :
    ∃ scanned, tokens filter.render = .ok scanned ∧
      scanned.map Word.ofToken = filter.words :=
  exists_tokens_of_separated (printable.separated endsFilter_nil) (textOf_words filter).symm

end Filter

end SearchQuery.Query
