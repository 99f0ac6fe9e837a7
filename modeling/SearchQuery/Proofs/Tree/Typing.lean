import SearchQuery.Proofs.Scan.Longest
import SearchQuery.Proofs.Tree.Failure

/-!
# Errors while a query is typed

A query is typed from left to right, and its tree is read again after each character.  A
lexeme that is refused is the first one that no query can have at its place: the text in
front of it is a query or can become one.  And the refusal stays whatever is typed next,
once the lexeme is over (`StopsAt.append`); a lexeme at the end can still change.
-/

namespace SearchQuery.Query.SyntaxTree

open Text TreeReader

/-- If all lexemes are taken, there is a tree or the query is incomplete. -/
theorem read_or_isIncomplete_of_reads {query : String} {reader : TreeReader}
    (reads : start.Reads (lexemes query) reader) :
    (∃ tree, read query = .ok tree) ∨
      ∃ error, read query = .error error ∧ error.isIncomplete = true := by
  cases finished : reader.finish (endMark query) with
  | ok tree => exact .inl ⟨tree, read_eq_ok_iff.2 ⟨reader, reads, finished⟩⟩
  | error error => exact .inr ⟨error, stopsShort_iff.1 ⟨reader, reads, finished⟩⟩

section Stops

variable {query : String} {before behind : List Lexeme} {lexeme : Lexeme} {error : TreeError}

/-- The lexemes in front of the refused one are those of the text in front of it. -/
theorem StopsAt.exists_front (stops : StopsAt query before lexeme behind error) :
    ∃ front rest, query.toList = front ++ rest ∧ width front = error.cause.span.start ∧
      lexemes (String.ofList front) = before := by
  obtain ⟨front, rest, split, ahead, -⟩ := exists_of_lexemesFrom_eq_append stops.split
  refine ⟨front, rest, split, ?_, ?_⟩
  · have placed := placed_lexemes query
    have text := textOf_lexemesFrom 0 front
    rw [stops.split, List.map_append, List.map_cons] at placed
    rw [ahead] at text
    rw [stops.refuses.cause_eq, placed.span_start, text]
  · rw [lexemes, String.toList_ofList, ahead]

/-- A lexeme that is refused in the middle of a query is refused however the query goes
on. -/
theorem StopsAt.append (stops : StopsAt query before lexeme behind error)
    (inside : behind ≠ []) (more : String) :
    ∃ later, StopsAt (query ++ more) before lexeme later error := by
  have split : lexemes query = (before ++ [lexeme]) ++ behind := by
    rw [stops.split, List.append_assoc, List.singleton_append]
  obtain ⟨front, rest, -, -, -, typed⟩ := exists_of_lexemesFrom_eq_append split
  refine ⟨lexemesFrom (0 + width front) (rest ++ more.toList), ?_, stops.refused⟩
  rw [lexemes, String.toList_append, typed inside, List.append_assoc, List.singleton_append]

/-- Behind the refused lexeme stand the lexemes that are left. -/
theorem StopsAt.stop_add_width (stops : StopsAt query before lexeme behind error) :
    error.cause.span.stop + width (Token.textOf (behind.map Lexeme.token)) =
      width query.toList := by
  have placed := placed_lexemes query
  have text := textOf_lexemes query
  rw [stops.split, List.map_append, List.map_cons] at placed text
  rw [stops.refuses.cause_eq, placed.span_stop, text]

end Stops

/-- A query that is refused at some token is refused as early as possible and for good.  The
text in front of the token is read or is incomplete.  Unless the token touches the end of
the query, all queries that begin with this one are refused with the same error; so on the
way to a query that is read, only the token at the end is ever refused. -/
theorem read_append_of_read_eq_error {query : String} {error : TreeError}
    (failed : read query = .error error) (hard : error.isIncomplete = false) :
    (∃ front, slice? query.toList ⟨0, error.cause.span.start⟩ = some front ∧
        ((∃ tree, read (String.ofList front) = .ok tree) ∨
          ∃ missing, read (String.ofList front) = .error missing ∧
            missing.isIncomplete = true)) ∧
      (error.cause.span.stop < width query.toList →
        ∀ more, read (query ++ more) = .error error) ∧
      ∀ more tree, read (query ++ more) = .ok tree →
        error.cause.span.stop = width query.toList := by
  obtain ⟨before, lexeme, behind, stops⟩ := exists_stopsAt failed hard
  have earliest : ∃ front, slice? query.toList ⟨0, error.cause.span.start⟩ = some front ∧
      ((∃ tree, read (String.ofList front) = .ok tree) ∨
        ∃ missing, read (String.ofList front) = .error missing ∧
          missing.isIncomplete = true) := by
    obtain ⟨front, rest, split, start_eq, ahead⟩ := stops.exists_front
    obtain ⟨reader, reads, -⟩ := stops.refused
    refine ⟨front, ?_, read_or_isIncomplete_of_reads (ahead.symm ▸ reads)⟩
    have slice := slice?_append [] front rest
    rw [width_nil, Nat.zero_add, start_eq] at slice
    rw [split]
    exact slice
  have permanent : error.cause.span.stop < width query.toList →
      ∀ more, read (query ++ more) = .error error := by
    intro inside more
    have others : behind ≠ [] := by
      rintro rfl
      exact Nat.ne_of_lt inside stops.stop_add_width
    obtain ⟨later, stopsLater⟩ := stops.append others more
    exact stopsLater.read_eq
  refine ⟨earliest, permanent, ?_⟩
  intro more tree found
  have within : error.cause.span.stop ≤ width query.toList := by
    rw [← stops.stop_add_width]
    exact Nat.le_add_right _ _
  apply Nat.le_antisymm within
  apply Nat.le_of_not_lt
  intro inside
  cases (permanent inside more).symm.trans found

/-- A second condition without a connective before it is refused, and nothing that is typed
behind it helps. -/
theorem read_append_second_condition :
    let second : Token Tag := ⟨.field, "b", ⟨4, 5⟩⟩
    let error : TreeError := ⟨.unexpectedToken [.eof] second, second⟩
    read "a=1 b=2" = .error error ∧ error.isIncomplete = false ∧
      ∀ more, read ("a=1 b=2" ++ more) = .error error := by
  intro second error
  have failed : read "a=1 b=2" = .error error := by decide +kernel
  exact ⟨failed, rfl, (read_append_of_read_eq_error failed rfl).2.1 (by decide)⟩

end SearchQuery.Query.SyntaxTree
