import SearchQuery.Proofs.Tree.Leaves

/-!
# Where the reading of a tree stops

The reading of a tree fails in one of two ways (`read_eq_error_iff`).  Either the lexemes up
to one are taken and that one is refused, or all of them are taken and something is missing
at the end.  A query is incomplete exactly in the second case, and what is behind a refused
lexeme is never looked at.

Either way the error is about the place of its cause, and the cause is a token of the query or
the mark at its end (`cause_of_read_eq_error`).
-/

namespace SearchQuery.Query

open Text

namespace TreeReader

/-! ## The lexeme that is refused -/

/-- A run fails exactly when some lexeme is refused by the reader that has taken all in front
of it.  The lexemes behind do not matter. -/
theorem foldlM_step_eq_error_iff {reader : TreeReader} {found : List Lexeme}
    {error : TreeError} :
    found.foldlM step reader = .error error ↔
      ∃ before lexeme behind middle, found = before ++ lexeme :: behind ∧
        reader.Reads before middle ∧ middle.step lexeme = .error error :=
  foldlM_eq_error_iff

/-- What is said about a lexeme that is refused: where a value is wanted, that it is none,
and elsewhere its own fault or the tags that are wanted. -/
inductive Refuses (lexeme : Lexeme) : TreeError → Prop
  | token (expected : List Tag) : Refuses lexeme (refuse lexeme expected)
  | value : Refuses lexeme ⟨.unexpectedValue lexeme.token, lexeme.token⟩

theorem refuses_of_stepSignificant {reader : TreeReader} {lexeme : Lexeme} {error : TreeError}
    (refused : reader.stepSignificant lexeme = .error error) : Refuses lexeme error := by
  rcases reader with ⟨expected, level, enclosing⟩
  cases expected with
  | operand blanks =>
      simp only [stepSignificant] at refused
      split at refused <;> cases refused
      exact .token _
  | comparison parts =>
      simp only [stepSignificant] at refused
      split at refused <;> cases refused
      exact .token _
  | value parts =>
      simp only [stepSignificant] at refused
      split at refused <;> cases refused
      exact .value
  | connective chain blanks =>
      simp only [stepSignificant] at refused
      split at refused <;> cases refused
      exact .token _

/-- A step fails only at a lexeme that is not blank, and says so. -/
theorem refuses_of_step {reader : TreeReader} {lexeme : Lexeme} {error : TreeError}
    (refused : reader.step lexeme = .error error) : Refuses lexeme error := by
  unfold step at refused
  split at refused
  · cases refused
  · exact refuses_of_stepSignificant refused

theorem Refuses.cause_eq {lexeme : Lexeme} {error : TreeError}
    (refuses : Refuses lexeme error) : error.cause = lexeme.token := by
  cases refuses <;> rfl

/-- The error at a lexeme is about the place of the lexeme. -/
theorem Refuses.position?_reason {start : Nat} {text : List Char} {lexeme : Lexeme}
    {error : TreeError} (refuses : Refuses lexeme error)
    (mem : lexeme ∈ lexemesFrom start text) :
    error.reason.position? = some lexeme.token.span.start := by
  cases refuses with
  | value => rfl
  | token expected =>
      unfold refuse
      cases faulty : lexeme.error with
      | none => rfl
      | some fault => exact position?_of_error_eq_some mem faulty

/-! ## The end of the query -/

/-- What is said at the mark behind the last lexeme. -/
inductive Lacks (mark : Token Tag) : TreeError → Prop
  | more : Lacks mark ⟨.unexpectedEnd mark.span.start, mark⟩
  | rightHandSide (connective : Connective) :
      Lacks mark ⟨.missingRightHandSide connective mark.span.start, mark⟩

theorem lacks_of_finish {reader : TreeReader} {mark : Token Tag} {error : TreeError}
    (failed : reader.finish mark = .error error) : Lacks mark error := by
  rcases reader with ⟨expected, level, enclosing⟩
  cases expected with
  | operand blanks =>
      simp only [finish] at failed
      split at failed <;> cases failed
      · exact .rightHandSide _
      · exact .more
  | comparison parts =>
      cases failed
      exact .more
  | value parts =>
      cases failed
      exact .more
  | connective chain blanks =>
      simp only [finish] at failed
      split at failed <;> cases failed
      exact .more

theorem Lacks.cause_eq {mark : Token Tag} {error : TreeError} (lacks : Lacks mark error) :
    error.cause = mark := by
  cases lacks <;> rfl

theorem Lacks.position?_reason {mark : Token Tag} {error : TreeError}
    (lacks : Lacks mark error) : error.reason.position? = some mark.span.start := by
  cases lacks <;> rfl

end TreeReader

namespace SyntaxTree

open TreeReader

/-! ## Whole queries -/

/-- The reading of the query takes `before`, stops at `lexeme`, and leaves `behind`. -/
structure StopsAt (query : String) (before : List Lexeme) (lexeme : Lexeme)
    (behind : List Lexeme) (error : TreeError) : Prop where
  split : lexemes query = before ++ lexeme :: behind
  refused : ∃ reader, start.Reads before reader ∧ reader.step lexeme = .error error

/-- The reading of the query takes all lexemes and misses something at the end. -/
def StopsShort (query : String) (error : TreeError) : Prop :=
  ∃ reader, start.Reads (lexemes query) reader ∧ reader.finish (endMark query) = .error error

/-- The reading of a query fails at a lexeme or behind the last one. -/
theorem read_eq_error_iff {query : String} {error : TreeError} :
    read query = .error error ↔
      (∃ before lexeme behind, StopsAt query before lexeme behind error) ∨
        StopsShort query error := by
  have run : read query = .error error ↔
      (lexemes query).foldlM step start = .error error ∨ StopsShort query error := by
    simp only [read, StopsShort, Reads, bind, Except.bind]
    cases (lexemes query).foldlM step start <;> simp
  rw [run, foldlM_step_eq_error_iff]
  apply or_congr_left
  constructor
  · rintro ⟨before, lexeme, behind, reader, split, reads, refused⟩
    exact ⟨before, lexeme, behind, split, reader, reads, refused⟩
  · rintro ⟨before, lexeme, behind, split, reader, reads, refused⟩
    exact ⟨before, lexeme, behind, reader, split, reads, refused⟩

section Stops

variable {query : String} {before behind : List Lexeme} {lexeme : Lexeme} {error : TreeError}

theorem StopsAt.read_eq (stops : StopsAt query before lexeme behind error) :
    read query = .error error :=
  read_eq_error_iff.2 (.inl ⟨_, _, _, stops⟩)

theorem StopsAt.mem (stops : StopsAt query before lexeme behind error) :
    lexeme ∈ lexemes query := by
  rw [stops.split]
  exact List.mem_append_right _ List.mem_cons_self

theorem StopsAt.refuses (stops : StopsAt query before lexeme behind error) :
    Refuses lexeme error := by
  rcases stops.refused with ⟨reader, -, refused⟩
  exact refuses_of_step refused

theorem StopsShort.lacks (stops : StopsShort query error) : Lacks (endMark query) error := by
  rcases stops with ⟨reader, -, failed⟩
  exact lacks_of_finish failed

/-- An error at a lexeme is final. -/
theorem StopsAt.not_isIncomplete (stops : StopsAt query before lexeme behind error) :
    error.isIncomplete = false := by
  rw [TreeError.isIncomplete, stops.refuses.cause_eq]
  exact beq_false_of_ne (tag_ne_eof_of_mem stops.mem)

/-- An error at the end may go away. -/
theorem StopsShort.isIncomplete (stops : StopsShort query error) :
    error.isIncomplete = true := by
  rw [TreeError.isIncomplete, stops.lacks.cause_eq]
  rfl

/-- The cause of an error is behind all lexemes that are taken. -/
theorem cause_mem_of_reads {first second : List Lexeme} {middle : TreeReader}
    (split : lexemes query = first ++ second) (reads : start.Reads first middle)
    (failed : read query = .error error) :
    error.cause ∈ second.map Lexeme.token ++ [endMark query] := by
  have rest : (second.foldlM step middle >>= fun reader => reader.finish (endMark query)) =
      .error error := by
    rw [read, split, List.foldlM_append, reads] at failed
    exact failed
  cases run : second.foldlM step middle with
  | error refusal =>
      rw [run] at rest
      cases rest
      obtain ⟨before, lexeme, behind, reader, rfl, -, refused⟩ :=
        foldlM_step_eq_error_iff.1 run
      rw [(refuses_of_step refused).cause_eq]
      simp
  | ok reader =>
      rw [run] at rest
      rw [(lacks_of_finish rest).cause_eq]
      exact List.mem_append_right _ List.mem_cons_self

/-- A query is incomplete exactly when its reading fails at the end. -/
theorem stopsShort_iff :
    StopsShort query error ↔ read query = .error error ∧ error.isIncomplete = true := by
  constructor
  · intro stops
    exact ⟨read_eq_error_iff.2 (.inr stops), stops.isIncomplete⟩
  · rintro ⟨failed, incomplete⟩
    rcases read_eq_error_iff.1 failed with ⟨_, _, _, stops⟩ | stops
    · rw [stops.not_isIncomplete] at incomplete
      cases incomplete
    · exact stops

/-- An error that is no matter of the end is one at a lexeme. -/
theorem exists_stopsAt (failed : read query = .error error)
    (hard : error.isIncomplete = false) :
    ∃ before lexeme behind, StopsAt query before lexeme behind error := by
  rcases read_eq_error_iff.1 failed with stops | stops
  · exact stops
  · rw [stops.isIncomplete] at hard
    cases hard

end Stops

/-- The error of a query is about the place of its cause; the cause is a token of the query
or the mark at its end, and its lexeme is the text at its place. -/
theorem cause_of_read_eq_error {query : String} {error : TreeError}
    (failed : read query = .error error) :
    error.reason.position? = some error.cause.span.start ∧
      error.cause ∈ (scanLenient query).tokens ∧
      slice? query.toList error.cause.span = some error.cause.lexeme.toList := by
  rcases read_eq_error_iff.1 failed with ⟨before, lexeme, behind, stops⟩ | stops
  · have mem : lexeme.token ∈ (lexemes query).map Lexeme.token :=
      List.mem_map_of_mem stops.mem
    have slice := (placed_lexemes query).slice?_of_mem mem
    rw [textOf_lexemes] at slice
    rw [stops.refuses.position?_reason stops.mem, stops.refuses.cause_eq]
    exact ⟨rfl, List.mem_append_left _ mem, slice⟩
  · have slice := slice?_append query.toList [] []
    rw [List.append_nil, List.append_nil] at slice
    rw [stops.lacks.position?_reason, stops.lacks.cause_eq]
    exact ⟨rfl, List.mem_append_right _ List.mem_cons_self, slice⟩

end SyntaxTree

end SearchQuery.Query
