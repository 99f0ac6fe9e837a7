import SearchQuery.Proofs.Scan.Faults
import SearchQuery.Proofs.Scan.Longest
import SearchQuery.Proofs.Tree.Agreement
import SearchQuery.Proofs.Tree.Failure

/-!
# The two readers report the same errors

Where a query is not read as a filter, the reader of trees stops at the same token and for
the same reason.  There are two exceptions, and both lie in the query.  A query of blanks
only is empty for the reader of filters and unfinished for the other one.  And a literal
without a value ends the reading of a filter, while the reader of trees bears it and goes
on, so that it can only stop further behind (`RunsAgree`).
-/

namespace SearchQuery.Query

open Text

namespace TreeReader

/-! ## Two runs side by side -/

/-- How the two readers answer to the same lexemes: both take all of them, both refuse one of
them for the same reason, or one of them is a literal without a value, which ends the
reading of a filter and is taken by the reader of trees. -/
inductive RunsAgree (reader : TreeReader) (plain : Reader) (found : List Lexeme) : Prop
  | taken {after : TreeReader} {plainAfter : Reader} (reads : reader.Reads found after)
      (plainReads : plain.Reads (Filter.significant (found.map Lexeme.token)) plainAfter)
      (same : Matches after plainAfter)
  | refused {error : Error} {token : Token Tag}
      (failed : found.foldlM TreeReader.step reader = .error ⟨error, token⟩)
      (plainFailed :
        (Filter.significant (found.map Lexeme.token)).foldlM Reader.step plain = .error error)
  | borne {before behind : List Lexeme} {lexeme : Lexeme} {middle : TreeReader}
      (split : found = before ++ lexeme :: behind)
      (reads : reader.Reads (before ++ [lexeme]) middle)
      (valid : ∀ other ∈ before, (Leaf.ofRead other.token).isValid = true)
      (malformed : (Leaf.ofRead lexeme.token).isValid = false)
      (plainFailed :
        (Filter.significant (found.map Lexeme.token)).foldlM Reader.step plain =
          .error (.invalidToken lexeme.token))

/-- A lexeme that both readers take changes nothing in how they answer to the rest. -/
theorem RunsAgree.cons {reader next : TreeReader} {plain plainNext : Reader}
    {lexeme : Lexeme} {found : List Lexeme} (taken : reader.step lexeme = .ok next)
    (valid : (Leaf.ofRead lexeme.token).isValid = true)
    (plainTaken :
      (Filter.significant ((lexeme :: found).map Lexeme.token)).foldlM Reader.step plain =
        (Filter.significant (found.map Lexeme.token)).foldlM Reader.step plainNext)
    (rest : RunsAgree next plainNext found) : RunsAgree reader plain (lexeme :: found) := by
  cases rest with
  | taken reads plainReads same =>
      exact .taken (reads_cons_iff.2 ⟨next, taken, reads⟩) (plainTaken.trans plainReads) same
  | @refused error token failed plainFailed =>
      have failedHere : (lexeme :: found).foldlM step reader = .error ⟨error, token⟩ := by
        rw [List.foldlM_cons, taken]
        exact failed
      exact .refused failedHere (plainTaken.trans plainFailed)
  | @borne before behind literal middle split reads validBefore malformed plainFailed =>
      exact .borne (congrArg (lexeme :: ·) split) (reads_cons_iff.2 ⟨next, taken, reads⟩)
        (List.forall_mem_cons.2 ⟨valid, validBefore⟩) malformed
        (plainTaken.trans plainFailed)

/-- Readers in the same state answer alike to clean lexemes. -/
theorem Matches.runsAgree {reader : TreeReader} {plain : Reader} {found : List Lexeme}
    (same : Matches reader plain) (clean : ∀ lexeme ∈ found, IsClean lexeme) :
    RunsAgree reader plain found := by
  induction found generalizing reader plain with
  | nil => exact .taken (reads_nil_iff.2 rfl) (Reader.reads_nil_iff.2 rfl) same
  | cons lexeme found ih =>
      rcases List.forall_mem_cons.1 clean with ⟨cleanHere, cleanRest⟩
      by_cases blank : lexeme.token.tag = .blank
      · have valid : (Leaf.ofRead lexeme.token).isValid = true := by
          simp [Leaf.isValid_ofRead, lacksValue, blank]
        refine .cons (if_pos blank) valid ?_ (ih (same.keepBlank blank) cleanRest)
        rw [List.map_cons, Filter.significant_cons_of_blank blank]
      · have agree := same.step_of_isClean cleanHere blank
        have plainRun :
            (Filter.significant ((lexeme :: found).map Lexeme.token)).foldlM Reader.step plain =
              (plain.step lexeme.token >>=
                (Filter.significant (found.map Lexeme.token)).foldlM Reader.step) := by
          rw [List.map_cons, Filter.significant_cons_of_ne blank, List.foldlM_cons]
        generalize taken : reader.step lexeme = answer at agree
        generalize plainTaken : plain.step lexeme.token = plainAnswer at agree
        rw [plainTaken] at plainRun
        cases agree with
        | taken nextSame valid =>
            exact .cons taken valid plainRun (ih nextSame cleanRest)
        | refused error =>
            have failed : (lexeme :: found).foldlM TreeReader.step reader =
                .error ⟨error, lexeme.token⟩ := by
              rw [List.foldlM_cons, taken]
              rfl
            exact .refused failed plainRun
        | @borne next malformed =>
            have reads : reader.Reads ([] ++ [lexeme]) next :=
              reads_cons_iff.2 ⟨next, taken, reads_nil_iff.2 rfl⟩
            have valid : ∀ other ∈ ([] : List Lexeme), (Leaf.ofRead other.token).isValid = true :=
              fun _ mem => absurd mem List.not_mem_nil
            exact .borne rfl reads valid malformed plainRun

/-! ## Errors of one reader only -/

/-- No reading of a tree calls the query empty or ends at a literal. -/
theorem Refuses.reason_ne {lexeme : Lexeme} {error : TreeError}
    (refuses : Refuses lexeme error) (faultless : lexeme.error = none) :
    error.reason ≠ .emptyExpression ∧
      ∀ text position, error.reason ≠ .invalidLiteral text position := by
  cases refuses with
  | value => simp
  | token expected => simp [refuse, faultless]

theorem Lacks.reason_ne {mark : Token Tag} {error : TreeError} (lacks : Lacks mark error) :
    error.reason ≠ .emptyExpression ∧
      ∀ text position, error.reason ≠ .invalidLiteral text position := by
  cases lacks <;> simp

end TreeReader

theorem SyntaxTree.reason_ne_of_read_eq_error {query : String} {error : TreeError}
    (faultless : ∀ lexeme ∈ lexemes query, lexeme.error = none)
    (failed : read query = .error error) :
    error.reason ≠ .emptyExpression ∧
      ∀ text position, error.reason ≠ .invalidLiteral text position := by
  rcases read_eq_error_iff.1 failed with ⟨_, _, _, stops⟩ | stops
  · exact stops.refuses.reason_ne (faultless _ stops.mem)
  · exact stops.lacks.reason_ne

/-- A literal without a value that the reader of trees has borne: all lexemes up to it are
taken, and it is the first one whose leaf is not valid. -/
structure Bears (query : String) (before : List Lexeme) (literal : Lexeme)
    (behind : List Lexeme) : Prop where
  split : lexemes query = before ++ literal :: behind
  reads : ∃ middle, TreeReader.start.Reads (before ++ [literal]) middle
  valid : ∀ other ∈ before, (Leaf.ofRead other.token).isValid = true
  malformed : (Leaf.ofRead literal.token).isValid = false

/-- An error of the reader of filters, apart from that for an empty query, is the error of
the reader of trees or is about a literal that the other one bears. -/
theorem read_of_run_eq_error {query : String} {error : Error}
    (faultless : ∀ lexeme ∈ lexemes query, lexeme.error = none)
    (failed : Reader.run (Filter.significant ((lexemes query).map Lexeme.token))
      (width query.toList) = .error error) :
    (∃ cause, SyntaxTree.read query = .error ⟨error, cause⟩) ∨
      ∃ before literal behind, Bears query before literal behind ∧
        error = .invalidToken literal.token := by
  simp only [Reader.run, bind, Except.bind] at failed
  cases TreeReader.matches_start.runsAgree fun _ => isClean_of_mem faultless with
  | @taken after plainAfter reads plainReads same =>
      rw [show _ = Except.ok plainAfter from plainReads] at failed
      rcases same.finish (endMark query) with ⟨tree, filter, -, plainFinished, -⟩ |
          ⟨refusal, finished, plainFinished⟩
      · cases plainFinished.symm.trans failed
      · cases plainFinished.symm.trans failed
        exact .inl ⟨_, SyntaxTree.read_eq_error_iff.2 (.inr ⟨after, reads, finished⟩)⟩
  | @refused refusal token treeFailed plainFailed =>
      rw [plainFailed] at failed
      cases failed
      refine .inl ⟨token, ?_⟩
      rw [SyntaxTree.read, treeFailed]
      rfl
  | @borne before behind literal middle split reads valid malformed plainFailed =>
      rw [plainFailed] at failed
      cases failed
      exact .inr ⟨before, literal, behind, ⟨split, ⟨middle, reads⟩, valid, malformed⟩, rfl⟩

/-! ## Queries of blanks -/

/-- A blank token holds blank characters only. -/
theorem Spells.isBlank_of_mem {text : List Char} (spells : Spells .blank text) :
    ∀ c ∈ text, isBlank c = true := by
  generalize tag_eq : Tag.blank = tag at spells
  cases spells with
  | blank firstBlank restBlank => exact List.forall_mem_cons.2 ⟨firstBlank, restBlank⟩
  | word => exact absurd tag_eq.symm (Tag.ofWord_ne rfl _)
  | _ => cases tag_eq

/-- Blank text is scanned as blank tokens. -/
theorem tag_eq_blank_of_mem {query : String} {scanned : List (Token Tag)}
    (scans : tokens query = .ok scanned) (blank : ∀ c ∈ query.toList, isBlank c = true) :
    ∀ token ∈ scanned, token.tag = .blank := by
  cases text : query.toList with
  | nil =>
      rcases tokens_eq_ok_iff.1 scans with ⟨-, rfl⟩
      simp [lexemes, lexemesFrom, text]
  | cons first rest =>
      rw [text, List.forall_mem_cons] at blank
      have separated : Word.Separated [⟨.blank, query⟩] [] := by
        refine ⟨?_, startsOutside_nil _, trivial⟩
        rw [text]
        exact .blank blank.1 blank.2
      obtain ⟨scanned', scans', words⟩ :=
        @exists_tokens_of_separated _ separated query (by simp)
      obtain rfl : scanned' = scanned := Except.ok.inj (scans'.symm.trans scans)
      intro token mem
      have word : Word.ofToken token ∈ [⟨.blank, query⟩] := words ▸ List.mem_map_of_mem mem
      exact congrArg Word.tag (List.mem_singleton.1 word)

/-- Nothing in a query carries meaning exactly when all of it is blank. -/
theorem significant_eq_nil_iff {query : String} {scanned : List (Token Tag)}
    (scans : tokens query = .ok scanned) :
    Filter.significant scanned = [] ↔ ∀ c ∈ query.toList, isBlank c = true := by
  have all_blank : Filter.significant scanned = [] ↔ ∀ token ∈ scanned, token.tag = .blank := by
    simp [Filter.significant, List.filter_eq_nil_iff]
  rw [all_blank]
  constructor
  · intro blank c mem
    rcases tokens_eq_ok_iff.1 scans with ⟨faultless, rfl⟩
    rw [← textOf_lexemes, Token.textOf, List.flatMap_map, List.mem_flatMap] at mem
    rcases mem with ⟨lexeme, lexemeMem, charMem⟩
    have spells := spells_of_mem_lexemesFrom lexemeMem (faultless lexeme lexemeMem)
    rw [blank _ (List.mem_map_of_mem lexemeMem)] at spells
    exact spells.isBlank_of_mem c charMem
  · exact tag_eq_blank_of_mem scans

/-! ## Errors of queries -/

/-- What the two readers say about a query that is scanned without a fault and is not read as
a filter. -/
structure ErrorsAgree (query : String) (scanned : List (Token Tag)) (error : Error) : Prop where
  isBlank_iff : error = .emptyExpression ↔ ∀ c ∈ query.toList, isBlank c = true
  empty : error = .emptyExpression →
    SyntaxTree.read query = .error ⟨.unexpectedEnd (width query.toList), endMark query⟩
  same : error ≠ .emptyExpression → (∀ text position, error ≠ .invalidLiteral text position) →
    ∃ cause ∈ scanned, SyntaxTree.read query = .error ⟨error, cause⟩ ∧
      error.position? = some cause.span.start ∧
      ∀ other ∈ scanned, other.span.start = cause.span.start → other = cause
  literal : ∀ text position, error = .invalidLiteral text position →
    (∃ tree leaf span, SyntaxTree.read query = .ok tree ∧ tree.malformed.head? = some leaf ∧
      leaf.span? = some span ∧ span.start = position) ∨
      ∃ later, SyntaxTree.read query = .error later ∧ position < later.position

/-- The strict scan succeeds where there is no fault, and finds what the tolerant one
does. -/
theorem scan_eq_ok_iff {query : String} {scanned : List (Token Tag)} :
    scan query = .ok scanned ↔
      (∀ lexeme ∈ lexemes query, lexeme.error = none) ∧
        scanned = (scanLenient query).tokens := by
  constructor
  · intro scans
    cases found : tokens query with
    | error error => simp [scan, found, Except.map] at scans
    | ok tokens =>
        rcases tokens_eq_ok_iff.1 found with ⟨faultless, rfl⟩
        simp only [scan, found, Except.map, Except.ok.injEq] at scans
        exact ⟨faultless, scans.symm⟩
  · rintro ⟨faultless, rfl⟩
    simp [scan, tokens_eq_ok_iff.2 ⟨faultless, rfl⟩, Except.map, scanLenient]

/-- Where a literal without a value is borne, either the tree is read and the leaf of that
literal is the first that is not valid, or its reading stops behind the literal. -/
theorem Bears.read {query : String} {before behind : List Lexeme} {literal : Lexeme}
    (bears : Bears query before literal behind) :
    (∃ tree leaf span, SyntaxTree.read query = .ok tree ∧ tree.malformed.head? = some leaf ∧
      leaf.span? = some span ∧ span.start = literal.token.span.start) ∨
      ∃ later, SyntaxTree.read query = .error later ∧
        literal.token.span.start < later.position := by
  cases found : SyntaxTree.read query with
  | ok tree =>
      have noneBefore :
          (before.map fun lexeme => Leaf.ofRead lexeme.token).filter (!·.isValid) = [] := by
        simpa [List.filter_eq_nil_iff] using bears.valid
      have first : tree.malformed.head? = some (Leaf.ofRead literal.token) := by
        rw [SyntaxTree.malformed, SyntaxTree.leaves_of_read found, bears.split, List.map_append,
          List.filter_append, noneBefore, List.nil_append, List.map_cons,
          List.filter_cons_of_pos (by simp [bears.malformed]), List.head?_cons]
      refine .inl ⟨tree, _, literal.token.span, rfl, first, ?_, rfl⟩
      rw [Leaf.span?_eq, Leaf.source?_ofRead, Option.map_some]
  | error later =>
      have split : lexemes query = (before ++ [literal]) ++ behind := by
        rw [bears.split, List.append_assoc, List.singleton_append]
      obtain ⟨middle, reads⟩ := bears.reads
      have behindLiteral := SyntaxTree.cause_mem_of_reads split reads found
      have ordered := (placed_lexemes query).pairwise_start .eof
      rw [← tokens_scanLenient, scanLenient, bears.split, List.map_append, List.map_cons,
        List.append_assoc, List.cons_append, List.pairwise_append, List.pairwise_cons]
        at ordered
      exact .inr ⟨later, rfl, ordered.2.1.1 _ behindLiteral⟩

/-- A query of blanks only is unfinished for the reader of trees. -/
theorem read_eq_error_of_isBlank {query : String}
    (faultless : ∀ lexeme ∈ lexemes query, lexeme.error = none)
    (nothing : Filter.significant ((lexemes query).map Lexeme.token) = []) :
    SyntaxTree.read query = .error ⟨.unexpectedEnd (width query.toList), endMark query⟩ := by
  have plainFailed : Reader.run (Filter.significant ((lexemes query).map Lexeme.token))
      (width query.toList) = .error (.unexpectedEnd (width query.toList)) := by
    rw [nothing]
    rfl
  rcases read_of_run_eq_error faultless plainFailed with ⟨cause, failed⟩ | ⟨_, _, _, -, eq⟩
  · obtain ⟨position, mem, -⟩ := SyntaxTree.cause_of_read_eq_error failed
    have atEnd : endMark query ∈ (scanLenient query).tokens :=
      List.mem_append_right _ List.mem_cons_self
    obtain rfl : cause = endMark query :=
      eq_of_start_eq mem atEnd (Option.some.inj position).symm
    exact failed
  · cases eq

/-- The errors of the two readers agree on every query without a fault of the scan. -/
theorem errorsAgree_of_read_eq_error {query : String} {scanned : List (Token Tag)}
    {error : Error} (scans : scan query = .ok scanned)
    (failed : Filter.read query = .error error) : ErrorsAgree query scanned error := by
  rcases scan_eq_ok_iff.1 scans with ⟨faultless, rfl⟩
  have found : tokens query = .ok ((lexemes query).map Lexeme.token) :=
    tokens_eq_ok_iff.2 ⟨faultless, rfl⟩
  have blank_iff := significant_eq_nil_iff found
  simp only [Filter.read, found, bind, Except.bind, List.isEmpty_iff] at failed
  by_cases nothing : Filter.significant ((lexemes query).map Lexeme.token) = []
  · rw [if_pos nothing] at failed
    cases failed
    exact
      { isBlank_iff := iff_of_true rfl (blank_iff.1 nothing)
        empty := fun _ => read_eq_error_of_isBlank faultless nothing
        same := fun notEmpty => absurd rfl notEmpty
        literal := fun _ _ eq => Error.noConfusion eq }
  · rw [if_neg nothing] at failed
    have notBlank := mt blank_iff.2 nothing
    rcases read_of_run_eq_error faultless failed with
      ⟨cause, treeFailed⟩ | ⟨before, literal, behind, bears, rfl⟩
    · obtain ⟨notEmpty, notLiteral⟩ :=
        SyntaxTree.reason_ne_of_read_eq_error faultless treeFailed
      obtain ⟨position, mem, -⟩ := SyntaxTree.cause_of_read_eq_error treeFailed
      exact
        { isBlank_iff := iff_of_false notEmpty notBlank
          empty := fun empty => absurd empty notEmpty
          same := fun _ _ => ⟨cause, mem, treeFailed, position,
            fun other otherMem start_eq => eq_of_start_eq otherMem mem start_eq⟩
          literal := fun text position eq => absurd eq (notLiteral text position) }
    · have notEmpty : Error.invalidToken literal.token ≠ .emptyExpression := Error.noConfusion
      refine
        { isBlank_iff := iff_of_false notEmpty notBlank
          empty := fun empty => absurd empty notEmpty
          same := fun _ notLiteral => absurd rfl (notLiteral _ _)
          literal := ?_ }
      intro text position eq
      cases eq
      exact bears.read

/-- The two readers report the same errors.  On a query without a fault of the scan they stop
at the same token and for the same reason, but for queries of blanks and for literals without
a value.  And on any query the error of the reader of trees is about the place of its cause,
which is a token of the tolerant scan with the text at its place. -/
theorem read_errors_agree (query : String) :
    (∀ scanned error, scan query = .ok scanned → Filter.read query = .error error →
      ErrorsAgree query scanned error) ∧
      ∀ error, SyntaxTree.read query = .error error →
        error.reason.position? = some error.cause.span.start ∧
          error.cause ∈ (scanLenient query).tokens ∧
          slice? query.toList error.cause.span = some error.cause.lexeme.toList :=
  ⟨fun _ _ scans failed => errorsAgree_of_read_eq_error scans failed,
    fun _ failed => SyntaxTree.cause_of_read_eq_error failed⟩

/-- Both readers refuse `a=- b`, one of them at the literal `-` and the other one at the field
behind it. -/
theorem read_errors_agree_lone_minus :
    let minus : Token Tag := ⟨.literal .int, "-", ⟨2, 3⟩⟩
    let second : Token Tag := ⟨.field, "b", ⟨4, 5⟩⟩
    let scanned : List (Token Tag) :=
      [⟨.field, "a", ⟨0, 1⟩⟩, ⟨.comparison .equal, "=", ⟨1, 2⟩⟩, minus, ⟨.blank, " ", ⟨3, 4⟩⟩,
        second, ⟨.eof, "", ⟨5, 5⟩⟩]
    scan "a=- b" = .ok scanned ∧ Filter.read "a=- b" = .error (.invalidLiteral "-" 2) ∧
      SyntaxTree.read "a=- b" = .error ⟨.unexpectedToken [.eof] second, second⟩ ∧
      ErrorsAgree "a=- b" scanned (.invalidLiteral "-" 2) := by
  intro minus second scanned
  have scans : scan "a=- b" = .ok scanned := by decide +kernel
  have failed : Filter.read "a=- b" = .error (.invalidLiteral "-" 2) := by decide +kernel
  have treeFailed : SyntaxTree.read "a=- b" =
      .error ⟨.unexpectedToken [.eof] second, second⟩ := by decide +kernel
  exact ⟨scans, failed, treeFailed, (read_errors_agree "a=- b").1 _ _ scans failed⟩

end SearchQuery.Query
