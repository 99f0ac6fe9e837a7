import SearchQuery.Proofs.Scan.Longest
import SearchQuery.Proofs.Text.Caret
import SearchQuery.Proofs.Tree.Failure
import SearchQuery.Proofs.Tree.Lossless

/-!
# The caret below a refused token

The token at which the reading of a tree stops is never blank, and no other token begins with a
blank character (`exists_cons_of_mem_lexemesFrom`).  So no line break stands at the start of a
refused token, and the caret stands below its first character, on the line with that character
(`caret_of_read_eq_error`).
-/

namespace SearchQuery.Query

open Text
open Command (Findings)

/-- A piece that begins with a blank character is a blank. -/
theorem exists_cons_of_mem_lexemesFrom {start : Nat} {text : List Char} {lexeme : Lexeme}
    (mem : lexeme ∈ lexemesFrom start text) (notBlank : lexeme.token.tag ≠ .blank) :
    ∃ c rest, lexeme.token.lexeme.toList = c :: rest ∧ isBlank c = false := by
  obtain ⟨position, piece, pieceMem, rfl⟩ := exists_piece_of_mem_lexemesFrom mem
  obtain ⟨c, rest, rfl⟩ := exists_head_of_mem_cut pieceMem
  rw [Lexeme.token_ofPiece, Token.ofText] at notBlank ⊢
  refine ⟨c, _, String.toList_ofList, Bool.eq_false_iff.2 ?_⟩
  intro blank
  apply notBlank
  simp only [head_of_isBlank blank]
  rfl

namespace SyntaxTree

open TreeReader

section Stops

variable {query : String} {before behind : List Lexeme} {lexeme : Lexeme} {error : TreeError}

theorem StopsAt.tag_ne_blank (stops : StopsAt query before lexeme behind error) :
    lexeme.token.tag ≠ .blank := by
  obtain ⟨reader, -, refused⟩ := stops.refused
  intro blank
  rw [step, if_pos blank] at refused
  cases refused

/-- The text is split in front of the refused token, which does not begin with a blank. -/
theorem StopsAt.exists_splitAt? (stops : StopsAt query before lexeme behind error) :
    ∃ front c rest, splitAt? error.cause.span.start query.toList = some (front, c :: rest) ∧
      error.cause.lexeme.toList.head? = some c ∧ isBlank c = false := by
  obtain ⟨front, rest, split, ahead, found, -⟩ := exists_of_lexemesFrom_eq_append stops.split
  obtain ⟨c, tail, lexeme_eq, notBlank⟩ :=
    exists_cons_of_mem_lexemesFrom stops.mem stops.tag_ne_blank
  have placed := placed_lexemes query
  have frontText := textOf_lexemesFrom 0 front
  have restText := textOf_lexemesFrom (0 + width front) rest
  rw [stops.split, List.map_append, List.map_cons] at placed
  rw [ahead] at frontText
  rw [found, List.map_cons, Token.textOf_cons, lexeme_eq, List.cons_append] at restText
  rw [stops.refuses.cause_eq, placed.span_start, frontText, split, splitAt?_append, ← restText]
  exact ⟨front, c, _, rfl, by rw [lexeme_eq, List.head?_cons], notBlank⟩

end Stops

/-- What is shown of a query that no typing can mend is the picture of the refused token. -/
theorem picture_of_read_eq_error {query : String} {error : TreeError}
    (failed : read query = .error error) (hard : error.isIncomplete = false) (colors : Bool) :
    (Findings.ofQuery query).picture colors = caret query error.position := by
  have hardError : (Findings.ofQuery query).hardError? = some error := by
    simp [Findings.hardError?, Findings.ofQuery, readLossy_of_error failed, Option.filter, hard]
  rw [Findings.picture, hardError, Findings.ofQuery, readLossy_of_error failed]

/-- No picture of a position in a query slices the query behind its end or inside a character,
whatever the position is.  If no typing can mend the query, the picture that is shown is the line
with the start of the refused token, and below it a caret behind as many spaces as there are
characters in front of that token on its line.  The line has a character above the caret, and it
is the first one of the token. -/
theorem caret_of_read_eq_error (query : String) :
    (∀ position, caretBySlices? query position = some (caret query position)) ∧
      ∀ error, read query = .error error → error.isIncomplete = false →
        (∀ colors, (Findings.ofQuery query).picture colors = caret query error.position) ∧
          ∃ shown column, IsColumn query.toList error.cause.span.start shown column ∧
            caret query error.position =
              String.ofList (shown ++ '\n' :: (List.replicate column ' ' ++ ['^'])) ∧
            column < shown.length ∧ shown[column]? = error.cause.lexeme.toList.head? := by
  constructor
  · exact caretBySlices?_eq_some query
  · intro error failed hard
    obtain ⟨before, lexeme, behind, stops⟩ := exists_stopsAt failed hard
    obtain ⟨front, c, rest, split, first, notBlank⟩ := stops.exists_splitAt?
    have noBreak : c ≠ '\n' := by
      rintro rfl
      cases notBlank
    obtain ⟨shown, column, isColumn, caret_eq, above⟩ := exists_isColumn_caret split
    obtain ⟨inside, at_eq⟩ := above c rfl noBreak
    exact ⟨picture_of_read_eq_error failed hard, shown, column, isColumn, caret_eq, inside,
      at_eq.trans first.symm⟩

/-- The refused token is on the second line, in the tenth column and at the eleventh byte of that
line, since the letter `é` is two bytes wide. -/
theorem caret_of_read_eq_error_second_line :
    let query : String := "a=\"é\"\nor b=\"é\" @"
    let cause : Token Tag := ⟨.error, "@", ⟨17, 18⟩⟩
    let error : TreeError := ⟨.unknownEntity '@' 17, cause⟩
    read query = .error error ∧ error.isIncomplete = false ∧
      caret query 17 = "or b=\"é\" @\n         ^" ∧
      ∃ shown column, IsColumn query.toList 17 shown column ∧
        caret query 17 =
          String.ofList (shown ++ '\n' :: (List.replicate column ' ' ++ ['^'])) ∧
        column < shown.length ∧ shown[column]? = some '@' := by
  intro query cause error
  have failed : read query = .error error := by decide +kernel
  have picture : caret query 17 = "or b=\"é\" @\n         ^" := by decide +kernel
  have first : error.cause.lexeme.toList.head? = some '@' := by decide +kernel
  have pointed := ((caret_of_read_eq_error query).2 error failed rfl).2
  rw [first] at pointed
  exact ⟨failed, rfl, picture, pointed⟩

end SyntaxTree

end SearchQuery.Query
