import SearchQuery.Proofs.Scan.Closing
import SearchQuery.Proofs.Tree.Failure
import SearchQuery.Proofs.Tree.Outline

/-!
# Every incomplete query can be completed

What is missing at the end of an incomplete query is known from the outline of the reader:
the rest of the operand that it is in, and a parenthesis for each group that is open
(`Outline.completion`).  These words begin with a character that goes on no token, so they can
be typed behind any query, once a delimiter that is open at its end is closed.
-/

namespace SearchQuery.Query

open Text

/-! ## Faults that are closed -/

/-- Where a fault can stand, a literal can stand. -/
theorem Closes.step? {tag closed : Tag} (closes : Closes tag closed) {outline after : Outline}
    (taken : outline.step? tag = some after) : outline.step? closed = some after := by
  cases closes with
  | same => exact taken
  | literal kind =>
      rcases outline with ⟨awaited, depth⟩
      cases awaited with
      | value => exact taken
      | _ => cases taken

theorem Outline.run?_closed {outline after : Outline} {tags closed : List Tag}
    (closes : List.Forall₂ Closes tags closed) (ran : outline.run? tags = some after) :
    outline.run? closed = some after := by
  induction closes generalizing outline with
  | nil => exact ran
  | cons here rest ih =>
      rw [Outline.run?_cons] at ran ⊢
      rcases Option.bind_eq_some_iff.1 ran with ⟨next, taken, ranRest⟩
      rw [here.step? taken]
      exact ih ranRest

/-! ## The words that are missing -/

namespace Outline

/-- The words that close groups. -/
def closers (depth : Nat) : List Word :=
  List.replicate depth ⟨.closeParen, ")"⟩

/-- The words up to the end of the operand that is being read. -/
def operandRest : Awaited → List Word
  | .operand =>
      [⟨.openParen, "("⟩, ⟨.field, "a"⟩, ⟨.comparison .notEqual, "!="⟩,
        ⟨.literal .string, "\"\""⟩, ⟨.closeParen, ")"⟩]
  | .comparison => [⟨.comparison .notEqual, "!="⟩, ⟨.literal .string, "\"\""⟩]
  | .value => [⟨.literal .string, "\"\""⟩]
  | .connective => []

/-- The words that lead to the end of a query. -/
def completion (outline : Outline) : List Word :=
  operandRest outline.awaited ++ closers outline.depth

theorem run?_closers (depth : Nat) :
    run? ⟨.connective, depth⟩ ((closers depth).map Word.tag) = some done := by
  induction depth with
  | zero => rfl
  | succ depth ih => exact ih

/-- The completion leads to the end. -/
theorem run?_completion (outline : Outline) :
    outline.run? (outline.completion.map Word.tag) = some done := by
  rcases outline with ⟨awaited, depth⟩
  have closed := run?_closers depth
  cases awaited <;> exact closed

end Outline

/-- A word that stands by itself behind any other word. -/
structure Word.Opens (word : Word) : Prop where
  spells : Spells word.tag word.lexeme.toList
  first : ∃ c rest, word.lexeme.toList = c :: rest ∧ c ∈ openers

namespace Word

theorem startsToken_of_opens {words : List Word} (opens : ∀ word ∈ words, word.Opens) :
    StartsToken (textOf words) := by
  cases words with
  | nil => simp [StartsToken]
  | cons word words =>
      rcases (opens word List.mem_cons_self).first with ⟨c, rest, text, mem⟩
      rw [textOf_cons, text]
      exact startsToken_cons mem _

theorem separated_of_opens {words : List Word} (opens : ∀ word ∈ words, word.Opens) :
    Separated words [] := by
  induction words with
  | nil => trivial
  | cons word words ih =>
      rcases List.forall_mem_cons.1 opens with ⟨here, rest⟩
      refine ⟨here.spells, ?_, ih rest⟩
      rw [List.append_nil]
      exact (startsToken_of_opens rest).stops word.tag

theorem opens_closeParen : Opens ⟨.closeParen, ")"⟩ :=
  ⟨.closeParen, ')', [], rfl, by decide⟩

theorem opens_notEqual : Opens ⟨.comparison .notEqual, "!="⟩ :=
  ⟨.comparison .notEqual, '!', ['='], rfl, by decide⟩

theorem opens_emptyString : Opens ⟨.literal .string, "\"\""⟩ :=
  ⟨@Spells.string [] List.not_mem_nil, '"', ['"'], rfl, by decide⟩

end Word

namespace Outline

open Word

theorem opens_of_mem_closers {depth : Nat} : ∀ word ∈ closers depth, word.Opens := by
  intro word mem
  rw [List.eq_of_mem_replicate mem]
  exact opens_closeParen

theorem opens_of_mem_valueRest {depth : Nat} :
    ∀ word ∈ operandRest .value ++ closers depth, word.Opens :=
  List.forall_mem_cons.2 ⟨opens_emptyString, opens_of_mem_closers⟩

theorem opens_of_mem_comparisonRest {depth : Nat} :
    ∀ word ∈ operandRest .comparison ++ closers depth, word.Opens :=
  List.forall_mem_cons.2 ⟨opens_notEqual, opens_of_mem_valueRest⟩

/-- The completion can be typed behind a text that is closed. -/
theorem startsToken_completion (outline : Outline) :
    StartsToken (textOf outline.completion) := by
  rcases outline with ⟨awaited, depth⟩
  cases awaited with
  | operand => exact startsToken_cons (by decide) _
  | comparison => exact startsToken_of_opens opens_of_mem_comparisonRest
  | value => exact startsToken_of_opens opens_of_mem_valueRest
  | connective => exact startsToken_of_opens opens_of_mem_closers

/-- The words of the completion do not run together. -/
theorem separated_completion (outline : Outline) : Separated outline.completion [] := by
  rcases outline with ⟨awaited, depth⟩
  cases awaited with
  | operand =>
      -- the field is kept apart from a word in front by the parenthesis before it
      have opens := @opens_of_mem_comparisonRest (depth + 1)
      have stops := (startsToken_of_opens opens).stops .field
      rw [← List.append_nil (textOf _)] at stops
      exact ⟨.openParen, fun _ _ => rfl, @spells_of_isWord "a" rfl, stops,
        separated_of_opens opens⟩
  | comparison => exact separated_of_opens opens_of_mem_comparisonRest
  | value => exact separated_of_opens opens_of_mem_valueRest
  | connective => exact separated_of_opens opens_of_mem_closers

/-- The completion is scanned as its words. -/
theorem map_pieceTag_completion (outline : Outline) :
    (cut head (textOf outline.completion)).map pieceTag = outline.completion.map Word.tag := by
  have pieces := congrArg (List.map Word.tag) (map_ofPiece_cut outline.separated_completion)
  rwa [List.append_nil, cut_nil, List.map_nil, List.append_nil, List.map_map] at pieces

end Outline

/-! ## Incomplete queries -/

theorem tagsOf_eq (query : String) :
    tagsOf query = (cut head query.toList).map pieceTag := by
  have words := congrArg (List.map Word.tag) (map_ofToken_lexemes query)
  simpa [List.map_map, Function.comp_def, tagsOf, Word.ofToken, Word.ofPiece] using words

namespace SyntaxTree

/-- If all lexemes of a query are taken, it can be completed. -/
theorem exists_completion_of_reads {query : String} {reader : TreeReader}
    (reads : TreeReader.start.Reads (lexemes query) reader) :
    ∃ rest tree, read (query ++ rest) = .ok tree := by
  have ran : Outline.start.run? (tagsOf query) = some reader.outline := reads.run?_outline
  rw [tagsOf_eq] at ran
  obtain ⟨closing, closes⟩ := exists_closing query.toList
  obtain ⟨closed, tags, pieces⟩ := closes _ reader.outline.startsToken_completion
  refine ⟨String.ofList (closing ++ Word.textOf reader.outline.completion),
    exists_read_iff.2 ?_⟩
  rw [tagsOf_eq, String.toList_append, String.toList_ofList, pieces,
    Outline.map_pieceTag_completion, Outline.run?_append, Outline.run?_closed tags ran]
  exact reader.outline.run?_completion

/-- An incomplete query misses something at its end, and there is a text that can be typed
behind it so that the whole is read. -/
theorem exists_completion_of_isIncomplete {query : String} {error : TreeError}
    (failed : read query = .error error) (incomplete : error.isIncomplete = true) :
    error.cause = endMark query ∧
      (error.reason = .unexpectedEnd (width query.toList) ∨
        ∃ connective, error.reason = .missingRightHandSide connective (width query.toList)) ∧
      ∃ rest tree, read (query ++ rest) = .ok tree := by
  obtain ⟨reader, reads, unfinished⟩ := stopsShort_iff.2 ⟨failed, incomplete⟩
  have completed := exists_completion_of_reads reads
  cases TreeReader.lacks_of_finish unfinished with
  | more => exact ⟨rfl, .inl rfl, completed⟩
  | rightHandSide connective => exact ⟨rfl, .inr ⟨connective, rfl⟩, completed⟩

/-- The string that is open at the end of `a=1 and (b="x` can be closed, and then the
group. -/
theorem exists_completion_open_string :
    let error : TreeError := ⟨.unexpectedEnd 13, ⟨.eof, "", ⟨13, 13⟩⟩⟩
    read "a=1 and (b=\"x" = .error error ∧ error.isIncomplete = true ∧
      ∃ rest tree, read ("a=1 and (b=\"x" ++ rest) = .ok tree := by
  intro error
  have failed : read "a=1 and (b=\"x" = .error error := by decide +kernel
  exact ⟨failed, rfl, (exists_completion_of_isIncomplete failed rfl).2.2⟩

end SyntaxTree

end SearchQuery.Query
