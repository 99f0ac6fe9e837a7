import SearchQuery.Proofs.Scan.Faults
import SearchQuery.Proofs.Tree.ErrorAgreement

/-!
# The tolerant scan and the strict one

The tolerant scan loses no text, and of what is no token it keeps one faulty token and one error
each.  The error is found again by its place, and that is what the reader of trees says where it
stops at faulty text (`errorAt_of_read_eq_error`).  Without errors both scans agree, and otherwise
the strict scan and the reader of filters fail with the first of the errors
(`extendsScan_scanLenient`).
-/

namespace SearchQuery.Query

open Text

/-! ## Readers at faulty text -/

/-- Where the reader of trees refuses faulty text, it says what the scan says at that place. -/
theorem errorAt_eq_reason_refuse {query : String} {lexeme : Lexeme}
    (mem : lexeme ∈ lexemes query) (tag : lexeme.token.tag = .error) (expected : List Tag) :
    (scanLenient query).errorAt lexeme.token.span.start =
      some (TreeReader.refuse lexeme expected).reason := by
  obtain ⟨error, faulty, own⟩ := exists_error_of_mem mem tag
  have tokenMem : lexeme.token ∈ (scanLenient query).tokens :=
    List.mem_append_left _ (List.mem_map_of_mem mem)
  rw [TreeReader.refuse, faulty]
  exact errorAt_scanLenient.2 ⟨_, tokenMem, tag, rfl, own⟩

/-- Faulty text is borne where a value is wanted, and refused everywhere else. -/
theorem TreeReader.exists_refuse_of_step {reader : TreeReader} {lexeme : Lexeme}
    {error : TreeError} (tag : lexeme.token.tag = .error)
    (refused : reader.step lexeme = .error error) : ∃ expected, error = refuse lexeme expected := by
  rcases reader with ⟨wanted, level, enclosing⟩
  rw [step, if_neg (by simp [tag])] at refused
  cases wanted with
  | operand blanks =>
      simp only [stepSignificant, tag] at refused
      cases refused
      exact ⟨_, rfl⟩
  | comparison parts =>
      simp only [stepSignificant, tag] at refused
      cases refused
      exact ⟨_, rfl⟩
  | value parts => simp [stepSignificant, operand?, tag] at refused
  | connective chain blanks =>
      simp only [stepSignificant, tag] at refused
      cases refused
      exact ⟨_, rfl⟩

/-- A tree that is not read because of faulty text is not read for the reason that the scan gives
at that place. -/
theorem errorAt_of_read_eq_error {query : String} {failure : TreeError}
    (failed : SyntaxTree.read query = .error failure) (tag : failure.cause.tag = .error) :
    (scanLenient query).errorAt failure.position = some failure.reason := by
  rcases SyntaxTree.read_eq_error_iff.1 failed with ⟨before, lexeme, behind, stops⟩ | stops
  · rw [stops.refuses.cause_eq] at tag
    obtain ⟨reader, -, refused⟩ := stops.refused
    obtain ⟨expected, rfl⟩ := TreeReader.exists_refuse_of_step tag refused
    exact errorAt_eq_reason_refuse stops.mem tag expected
  · rw [stops.lacks.cause_eq] at tag
    cases tag

/-- A query with an error of the scan is not read as a filter, whatever else is wrong with it. -/
theorem read_eq_error_of_head?_errors {query : String} {error : Error}
    (first : (scanLenient query).errors.head? = some error) :
    scan query = .error error ∧ Filter.read query = .error error := by
  have failed := tokens_eq_error_iff.2 first
  constructor
  · rw [scan, failed, Except.map]
  · rw [Filter.read, failed]
    rfl

/-! ## Both scans -/

/-- What the tolerant scan of a query finds, and what the strict scan makes of it. -/
structure ExtendsScan (query : String) (found : LenientScan) : Prop where
  /-- The tokens stand side by side, none of them is empty, and put together they are the query;
  behind them there is an empty mark. -/
  placed : ∃ tokens, found.tokens =
      tokens ++ [⟨.eof, "", ⟨query.utf8ByteSize, query.utf8ByteSize⟩⟩] ∧
    Token.Placed 0 tokens ∧ Token.textOf tokens = query.toList ∧ ∀ token ∈ tokens, token.tag ≠ .eof
  /-- The errors are those of the faulty tokens, one by one. -/
  errors : List.Forall₂ IsErrorOf (found.tokens.filter (·.tag = .error)) found.errors
  positions : found.errors.map Error.position? =
    (found.tokens.filter (·.tag = .error)).map fun token => some token.span.start
  /-- Errors are found by their places. -/
  errorAt : ∀ position error, found.errorAt position = some error ↔
    ∃ token ∈ found.tokens, token.tag = .error ∧ token.span.start = position ∧
      IsErrorOf token error
  /-- The reader of trees says about faulty text what is found at its place. -/
  refusal : ∀ lexeme ∈ lexemes query, lexeme.token.tag = .error → ∀ expected,
    found.errorAt lexeme.token.span.start = some (TreeReader.refuse lexeme expected).reason
  reason : ∀ failure, SyntaxTree.read query = .error failure → failure.cause.tag = .error →
    found.errorAt failure.position = some failure.reason
  /-- Without errors the strict scan finds the same tokens. -/
  scan : ∀ scanned, scan query = .ok scanned ↔ found.errors = [] ∧ scanned = found.tokens
  /-- With errors it fails with the first one, and so does the reader of filters. -/
  first : ∀ error, found.errors.head? = some error →
    Query.scan query = .error error ∧ Filter.read query = .error error

/-- The tolerant scan extends the strict one on every query. -/
theorem extendsScan_scanLenient (query : String) : ExtendsScan query (scanLenient query) where
  placed :=
    ⟨(lexemes query).map Lexeme.token, tokens_scanLenient_eq query, placed_lexemes query,
      textOf_lexemes query, List.forall_mem_map.2 fun _ => tag_ne_eof_of_mem⟩
  errors := forall₂_isErrorOf_scanLenient query
  positions := map_position?_errors query
  errorAt _ _ := errorAt_scanLenient
  refusal _ := errorAt_eq_reason_refuse
  reason _ := errorAt_of_read_eq_error
  scan scanned := by rw [scan_eq_ok_iff, errors_eq_nil_iff]
  first _ := read_eq_error_of_head?_errors

/-- Three faults of the three kinds: the two in front are single characters, and the open phrase
takes all that is left. -/
example :
    (scanLenient "a@!\"b /").errors =
        [.unknownEntity '@' 1, .unknownEntity '!' 2, .unterminatedString 3] ∧
      scan "a@!\"b /" = .error (.unknownEntity '@' 1) := by
  constructor <;> decide +kernel

end SearchQuery.Query
