import Mathlib.Logic.Function.Basic
import SearchQuery.Proofs.Canonical.Accepted
import SearchQuery.Proofs.Layout.Scan

/-!
# Reading in another layout

The strict reader looks at tags and lexemes only and hands the places of its tokens on.  So what
it reads from tokens at other places is what it read before with the new places put in, errors
included (`Reader.step_shifted`, `Reader.run_shifted`).  A query in another layout has the same
tokens at other places; it is read as an equal filter, or fails with the same error about the
same token (`Filter.read_of_relaid`).
-/

namespace SearchQuery.Text

/-- The span as wide as before, with its start at a new place. -/
def Span.shifted (place : Nat → Nat) (span : Span) : Span :=
  ⟨place span.start, place span.start + (span.stop - span.start)⟩

/-- The token with its start at a new place. -/
def Token.shifted {Tag : Type} (place : Nat → Nat) (token : Token Tag) : Token Tag :=
  { token with span := token.span.shifted place }

/-- The span of the token is as wide as its lexeme. -/
def Token.IsWide {Tag : Type} (token : Token Tag) : Prop :=
  token.span.stop = token.span.start + width token.lexeme.toList

end SearchQuery.Text

namespace SearchQuery.Query

open Text

variable {place : Nat → Nat}

/-- The operand with its token at a new place. -/
def Operand.shifted (place : Nat → Nat) (operand : Operand) : Operand :=
  ⟨operand.literal, operand.source.map (Token.shifted place)⟩

/-- The condition with the token of its value at a new place. -/
def Condition.shifted (place : Nat → Nat) (condition : Condition) : Condition :=
  { condition with operand := condition.operand.shifted place }

/-- The filter with the tokens of its values at new places. -/
def Filter.shifted (place : Nat → Nat) (filter : Filter) : Filter :=
  filter.mapConditions (Condition.shifted place)

/-- The error about the same cause at a new place. -/
def Error.shifted (place : Nat → Nat) : Error → Error
  | emptyExpression => emptyExpression
  | unknownEntity entity position => unknownEntity entity (place position)
  | unterminatedString position => unterminatedString (place position)
  | unterminatedRegexp position => unterminatedRegexp (place position)
  | unexpectedToken expected found => unexpectedToken expected (found.shifted place)
  | unexpectedValue found => unexpectedValue (found.shifted place)
  | missingRightHandSide operator position => missingRightHandSide operator (place position)
  | unexpectedEnd position => unexpectedEnd (place position)
  | invalidLiteral lexeme position => invalidLiteral lexeme (place position)
  | unsupportedOperator operator field => unsupportedOperator operator field
  | unknownField name suggestion => unknownField name suggestion

theorem Error.position?_shifted (error : Error) :
    (error.shifted place).position? = error.position?.map place := by
  cases error <;> rfl

/-- An answer of the reader with all its places new. -/
def shiftedAnswer {α : Type} (shift : α → α) (place : Nat → Nat) :
    Except Error α → Except Error α
  | .ok answer => .ok (shift answer)
  | .error error => .error (error.shifted place)

theorem Operand.ofToken_shifted (token : Token Tag) :
    ofToken (token.shifted place) =
      shiftedAnswer (Operand.shifted place) place (ofToken token) := by
  rcases token with ⟨tag, lexeme, span⟩
  cases tag with
  | literal kind =>
      simp only [ofToken, Token.shifted]
      cases Literal.read? kind lexeme <;> rfl
  | _ => rfl

/-- A token is refused as a value at its own place. -/
theorem Operand.position?_of_ofToken {token : Token Tag} {error : Error}
    (refused : ofToken token = .error error) : error.position? = some token.span.start := by
  unfold ofToken at refused
  split at refused
  · split at refused <;> cases refused
    rfl
  · cases refused
    rfl
  · cases refused
    rfl

/-- A level with its filters at new places. -/
def Level.shifted (place : Nat → Nat) (level : Level) : Level :=
  ⟨level.alternative.map (Filter.shifted place), level.conjunction.map (Filter.shifted place)⟩

theorem Level.joinLeft_shifted (connective : Connective) (left : Option Filter)
    (right : Filter) :
    joinLeft connective (left.map (Filter.shifted place)) (right.shifted place) =
      (joinLeft connective left right).shifted place := by
  cases left <;> rfl

theorem Level.pending?_shifted (level : Level) :
    (level.shifted place).pending? = level.pending? := by
  rcases level with ⟨alternative, conjunction⟩
  cases alternative <;> cases conjunction <;> rfl

/-- What the reader waits for, with the chain before it at new places. -/
def Expected.shifted (place : Nat → Nat) : Expected → Expected
  | operand => operand
  | comparison field => comparison field
  | value field sign => value field sign
  | connective chain => connective (chain.shifted place)

namespace Reader

/-- The reader with all its tokens at new places. -/
def shifted (place : Nat → Nat) (reader : Reader) : Reader :=
  ⟨reader.expected.shifted place, reader.level.shifted place,
    reader.enclosing.map (Level.shifted place)⟩

theorem afterOperand_shifted (level : Level) (enclosing : List Level) (operand : Filter) :
    afterOperand (level.shifted place) (enclosing.map (Level.shifted place))
        (operand.shifted place) =
      (afterOperand level enclosing operand).shifted place := by
  simp only [afterOperand, Level.shifted, Level.joinLeft_shifted]
  rfl

theorem closingTag_shifted (enclosing : List Level) :
    closingTag (enclosing.map (Level.shifted place)) = closingTag enclosing := by
  cases enclosing <;> rfl

/-- A step does the same at other places. -/
theorem step_shifted (reader : Reader) (token : Token Tag) :
    (reader.shifted place).step (token.shifted place) =
      shiftedAnswer (shifted place) place (reader.step token) := by
  rcases reader with ⟨expected, level, enclosing⟩
  cases expected with
  | operand =>
      rcases token with ⟨tag, lexeme, span⟩
      cases tag <;> rfl
  | comparison field =>
      rcases token with ⟨tag, lexeme, span⟩
      cases tag <;> rfl
  | value field sign =>
      simp only [step, shifted, Expected.shifted, Operand.ofToken_shifted]
      cases Operand.ofToken token with
      | error error => rfl
      | ok operand =>
          exact congrArg Except.ok
            (afterOperand_shifted level enclosing (.leaf ⟨field, sign, operand⟩))
  | connective chain =>
      have joined := @Level.joinLeft_shifted place .or level.alternative chain
      have refused :
          shiftedAnswer (shifted place) place
              (.error (.unexpectedToken [closingTag enclosing] token)) =
            .error (.unexpectedToken [closingTag (enclosing.map (Level.shifted place))]
              (token.shifted place)) := by
        rw [closingTag_shifted]
        rfl
      rcases token with ⟨tag, lexeme, span⟩
      cases tag with
      | connective word =>
          cases word with
          | and => rfl
          | or =>
              simp only [step, shifted, Expected.shifted, Token.shifted, shiftedAnswer]
              rw [Level.shifted, joined]
              rfl
      | closeParen =>
          cases enclosing with
          | nil => exact refused.symm
          | cons outer enclosing =>
              have closed := @afterOperand_shifted place outer enclosing
                (Level.joinLeft .or level.alternative chain)
              rw [← joined] at closed
              exact congrArg Except.ok closed
      | _ => exact refused.symm

theorem foldlM_step_shifted (reader : Reader) (tokens : List (Token Tag)) :
    (tokens.map (Token.shifted place)).foldlM step (reader.shifted place) =
      shiftedAnswer (shifted place) place (tokens.foldlM step reader) := by
  induction tokens generalizing reader with
  | nil => rfl
  | cons token tokens ih =>
      rw [List.map_cons, List.foldlM_cons, List.foldlM_cons, step_shifted]
      cases reader.step token with
      | error error => rfl
      | ok next => exact ih next

theorem finish_shifted (reader : Reader) (position : Nat) :
    (reader.shifted place).finish (place position) =
      shiftedAnswer (Filter.shifted place) place (reader.finish position) := by
  rcases reader with ⟨expected, level, enclosing⟩
  cases expected with
  | operand =>
      simp only [finish, shifted, Expected.shifted, Level.pending?_shifted]
      cases level.pending? <;> rfl
  | comparison field => rfl
  | value field sign => rfl
  | connective chain =>
      cases enclosing with
      | nil => exact congrArg Except.ok (Level.joinLeft_shifted .or level.alternative chain)
      | cons outer enclosing => rfl

/-- A run gives the same at other places. -/
theorem run_shifted (tokens : List (Token Tag)) (position : Nat) :
    run (tokens.map (Token.shifted place)) (place position) =
      shiftedAnswer (Filter.shifted place) place (run tokens position) := by
  have moved : (tokens.map (Token.shifted place)).foldlM step start =
      shiftedAnswer (shifted place) place (tokens.foldlM step start) :=
    foldlM_step_shifted start tokens
  simp only [run, bind, Except.bind, moved]
  cases tokens.foldlM step start with
  | error error => rfl
  | ok reader => exact finish_shifted reader position

/-! ## Places of errors -/

/-- A token is refused at its own place. -/
theorem position?_of_step {reader : Reader} {token : Token Tag} {error : Error}
    (refused : reader.step token = .error error) :
    error.position? = some token.span.start := by
  rcases reader with ⟨expected, level, enclosing⟩
  cases expected with
  | operand =>
      simp only [step] at refused
      split at refused <;> cases refused
      rfl
  | comparison field =>
      simp only [step] at refused
      split at refused <;> cases refused
      rfl
  | value field sign =>
      simp only [step] at refused
      cases read : Operand.ofToken token with
      | error refusal =>
          rw [read] at refused
          cases refused
          exact Operand.position?_of_ofToken read
      | ok operand =>
          rw [read] at refused
          cases refused
  | connective chain =>
      simp only [step] at refused
      split at refused <;> cases refused
      rfl

/-- The end is refused at its own place. -/
theorem position?_of_finish {reader : Reader} {position : Nat} {error : Error}
    (refused : reader.finish position = .error error) : error.position? = some position := by
  unfold finish at refused
  split at refused
  · split at refused <;> cases refused <;> rfl
  · split at refused <;> cases refused
    rfl
  · cases refused
    rfl

/-- A run fails about one of the tokens or about the end. -/
theorem position?_of_run {tokens : List (Token Tag)} {position : Nat} {error : Error}
    (failed : run tokens position = .error error) :
    error.position? = some position ∨
      ∃ token ∈ tokens, error.position? = some token.span.start := by
  simp only [run, bind, Except.bind] at failed
  cases ran : tokens.foldlM step start with
  | ok reader =>
      rw [ran] at failed
      exact .inl (position?_of_finish failed)
  | error refusal =>
      rw [ran] at failed
      cases failed
      obtain ⟨before, token, behind, middle, rfl, -, refused⟩ := foldlM_eq_error_iff.1 ran
      exact .inr ⟨token, by simp, position?_of_step refused⟩

end Reader

/-! ## Tokens with the same words -/

/-- Tokens with the same words in the same order are the same tokens at other places, if the old
ones start at different places. -/
theorem exists_shifted {tokens others : List (Token Tag)}
    (words : others.map Word.ofToken = tokens.map Word.ofToken)
    (wide : ∀ token ∈ tokens, token.IsWide) (otherWide : ∀ token ∈ others, token.IsWide)
    (distinct : tokens.Pairwise fun first second => first.span.start ≠ second.span.start) :
    ∃ place, others = tokens.map (Token.shifted place) := by
  induction tokens generalizing others with
  | nil => exact ⟨id, List.map_eq_nil_iff.1 words⟩
  | cons token tokens ih =>
      obtain ⟨other, others, rfl, word, words⟩ := List.map_eq_cons_iff.1 words
      rcases List.forall_mem_cons.1 wide with ⟨tokenWide, wide⟩
      rcases List.forall_mem_cons.1 otherWide with ⟨isWide, otherWide⟩
      rcases List.pairwise_cons.1 distinct with ⟨different, distinct⟩
      obtain ⟨place, rfl⟩ := ih words wide otherWide distinct
      rcases token with ⟨tag, lexeme, start, stop⟩
      rcases other with ⟨_, _, otherStart, otherStop⟩
      cases word
      refine ⟨Function.update place start otherStart, ?_⟩
      have here : Function.update place start otherStart start = otherStart :=
        Function.update_self ..
      have width_eq : stop - start = width lexeme.toList := by
        rw [show stop = start + _ from tokenWide, Nat.add_sub_cancel_left]
      rw [List.map_cons]
      congr 1
      · simp only [Token.shifted, Span.shifted, here, width_eq]
        rw [show otherStop = otherStart + _ from isWide]
      · apply List.map_congr_left
        intro later mem
        have elsewhere : Function.update place start otherStart later.span.start =
            place later.span.start :=
          Function.update_of_ne (different later mem).symm ..
        simp only [Token.shifted, Span.shifted, elsewhere]

/-- The tokens of a query are as wide as their lexemes, and each one starts at its own place. -/
theorem isWide_of_scan {query : String} {scanned : List (Token Tag)}
    (scans : scan query = .ok scanned) :
    (∀ token ∈ scanned, token.IsWide) ∧
      scanned.Pairwise fun first second => first.span.start ≠ second.span.start := by
  obtain ⟨found, foundScans, rfl⟩ := scan_eq_ok_iff_tokens.1 scans
  obtain ⟨-, rfl⟩ := tokens_eq_ok_iff.1 foundScans
  have placed := placed_lexemes query
  have marked_eq : (lexemes query).map Lexeme.token ++ [endMark query] =
      Token.marked .eof 0 ((lexemes query).map Lexeme.token) := by
    rw [Token.marked, textOf_lexemes, Nat.zero_add]
    rfl
  constructor
  · rw [List.forall_mem_append, List.forall_mem_singleton]
    refine ⟨?_, by simp [Token.IsWide, endMark, Token.mark, Token.ofText]⟩
    intro token mem
    rcases List.append_of_mem mem with ⟨before, behind, split⟩
    rw [split, Token.placed_append_iff] at placed
    rw [Token.IsWide, placed.2.2.1]
  · rw [marked_eq]
    exact (placed.pairwise_start .eof).imp Nat.ne_of_lt

/-- The tokens of a query in another layout are those of the old one at other places, blanks left
out. -/
theorem Relaid.exists_place {query other : String} {scanned : List (Token Tag)}
    (relaid : Relaid scanned other.toList) (scans : scan query = .ok scanned) :
    ∃ rescanned place, scan other = .ok rescanned ∧
      Filter.significant rescanned = (Filter.significant scanned).map (Token.shifted place) := by
  obtain ⟨rescanned, rescans, words⟩ := relaid.exists_scan scans
  rcases isWide_of_scan scans with ⟨wide, distinct⟩
  rcases isWide_of_scan rescans with ⟨otherWide, -⟩
  obtain ⟨place, moved⟩ := exists_shifted words
    (fun token mem => wide token (List.mem_of_mem_filter mem))
    (fun token mem => otherWide token (List.mem_of_mem_filter mem)) (distinct.filter _)
  exact ⟨rescanned, place, rescans, moved⟩

namespace Filter

/-- The mark at the end carries meaning. -/
theorem significant_marked (query : String) (tokens : List (Token Tag)) :
    significant (tokens ++ [endMark query]) = significant tokens ++ [endMark query] :=
  List.filter_append ..

theorem read_of_tokens {query : String} {found : List (Token Tag)}
    (scans : tokens query = .ok found) :
    read query = if significant found = [] then .error .emptyExpression
      else Reader.run (significant found) (width query.toList) := by
  simp only [read, scans, bind, Except.bind, List.isEmpty_iff]
  split <;> rfl

/-- An error is about a token that carries meaning or about the end, unless there are no such
tokens. -/
theorem position?_of_read {query : String} {scanned : List (Token Tag)} {error : Error}
    (scans : scan query = .ok scanned) (failed : read query = .error error) :
    error = .emptyExpression ∨
      ∃ token ∈ significant scanned, error.position? = some token.span.start := by
  obtain ⟨found, foundScans, rfl⟩ := scan_eq_ok_iff_tokens.1 scans
  rw [read_of_tokens foundScans] at failed
  split at failed
  · cases failed
    exact .inl rfl
  · rw [significant_marked]
    rcases Reader.position?_of_run failed with position | ⟨token, mem, position⟩
    · exact .inr ⟨endMark query, by simp, position⟩
    · exact .inr ⟨token, List.mem_append_left _ mem, position⟩

/-- If the tokens of a query are those of another at other places, then so is what is read. -/
theorem read_shifted {query other : String} {scanned rescanned : List (Token Tag)}
    (scans : scan query = .ok scanned) (rescans : scan other = .ok rescanned)
    (moved : significant rescanned = (significant scanned).map (Token.shifted place)) :
    read other = shiftedAnswer (Filter.shifted place) place (read query) := by
  obtain ⟨found, foundScans, rfl⟩ := scan_eq_ok_iff_tokens.1 scans
  obtain ⟨refound, refoundScans, rfl⟩ := scan_eq_ok_iff_tokens.1 rescans
  rw [significant_marked, significant_marked, List.map_append] at moved
  rcases List.append_inj' moved rfl with ⟨moved, endMoved⟩
  have ends : width other.toList = place (width query.toList) :=
    congrArg (fun token => token.span.start) (List.singleton_inj.1 endMoved)
  rw [read_of_tokens foundScans, read_of_tokens refoundScans, moved, ends, Reader.run_shifted]
  simp only [List.map_eq_nil_iff]
  split <;> rfl

/-- What is read equals itself. -/
theorem IsAccepted.same_self {filter : Filter} (accepted : filter.IsAccepted) :
    filter.same filter = true := by
  induction filter with
  | leaf condition =>
      rcases accepted condition List.mem_cons_self with ⟨-, -, noQuote, printable⟩
      have literal : condition.operand.literal.same condition.operand.literal = true := by
        rcases printable with printable | ⟨negative, infinite⟩
        · have same := (Literal.same_unquoted_iff printable).2 noQuote
          rwa [Literal.unquoted_eq_self noQuote] at same
        · simp [infinite, Literal.same, Number.Binary64.equal]
      simp [same, Condition.same, literal]
  | combine connective left right ihLeft ihRight =>
      rcases List.forall_mem_append.1 accepted with ⟨acceptedLeft, acceptedRight⟩
      simp [same, ihLeft acceptedLeft, ihRight acceptedRight]

theorem unsourced_shifted (filter : Filter) :
    (filter.shifted place).unsourced = filter.unsourced := by
  induction filter with
  | leaf condition => rfl
  | combine connective left right ihLeft ihRight =>
      exact congrArg₂ (combine connective) ihLeft ihRight

/-- A query in another layout has the tokens of the old one at other places, blanks left out.
What was read from the old one is read from the new one as an equal filter.  Where the old one
fails, the new one fails with the same error, about the same token. -/
theorem read_of_relaid {query other : String} {scanned : List (Token Tag)}
    (scans : scan query = .ok scanned) (relaid : Relaid scanned other.toList) :
    ∃ rescanned place, scan other = .ok rescanned ∧
      significant rescanned = (significant scanned).map (Token.shifted place) ∧
      (∀ filter, read query = .ok filter →
        read other = .ok (filter.shifted place) ∧ (filter.shifted place).same filter = true) ∧
      ∀ error, read query = .error error →
        read other = .error (error.shifted place) ∧
          (error = .emptyExpression ∨ ∃ token ∈ significant scanned,
            error.position? = some token.span.start ∧
              (error.shifted place).position? = some (token.shifted place).span.start) := by
  obtain ⟨rescanned, place, rescans, moved⟩ := relaid.exists_place scans
  have shifted := read_shifted scans rescans moved
  refine ⟨rescanned, place, rescans, moved, ?_, ?_⟩
  · intro filter found
    rw [found] at shifted
    refine ⟨shifted, ?_⟩
    rw [← same_unsourced, unsourced_shifted, same_unsourced]
    exact (isAccepted_of_read found).same_self
  · intro error failed
    rw [failed] at shifted
    refine ⟨shifted, (position?_of_read scans failed).imp_right ?_⟩
    rintro ⟨token, mem, position⟩
    have about : (error.shifted place).position? = some (token.shifted place).span.start := by
      rw [Error.position?_shifted, position]
      rfl
    exact ⟨token, mem, position, about⟩

/-- With an ideographic space, three bytes wide, for the space in front of `and`, the end of the
query moves from 7 to 12.  A layout of `a=1` that has blanks is read as an equal condition. -/
theorem read_of_relaid_missing_side :
    let scanned : List (Token Tag) :=
      [⟨.field, "a", ⟨0, 1⟩⟩, ⟨.comparison .equal, "=", ⟨1, 2⟩⟩, ⟨.literal .int, "1", ⟨2, 3⟩⟩,
        ⟨.blank, " ", ⟨3, 4⟩⟩, ⟨.connective .and, "and", ⟨4, 7⟩⟩, ⟨.eof, "", ⟨7, 7⟩⟩]
    scan "a=1 and" = .ok scanned ∧ Relaid scanned " a =1\u3000and ".toList ∧
      read "a=1 and" = .error (.missingRightHandSide .and 7) ∧
      (∃ place : Nat → Nat, read " a =1\u3000and " = .error (.missingRightHandSide .and (place 7)) ∧
        place 7 = 12) ∧
      ∃ filter reread, read "a=1" = .ok filter ∧ read "a = 1\t" = .ok reread ∧
        reread.same filter = true := by
  intro scanned
  have blank (c : Char) (isBlank : isBlank c = true) : ∀ d ∈ [c], Text.isBlank d = true :=
    List.forall_mem_singleton.2 isBlank
  have scans : scan "a=1 and" = .ok scanned := by decide +kernel
  have failed : read "a=1 and" = .error (.missingRightHandSide .and 7) := by decide +kernel
  have refailed : read " a =1\u3000and " = .error (.missingRightHandSide .and 12) := by
    decide +kernel
  have relaid : Relaid scanned " a =1\u3000and ".toList :=
    .insert (blank ' ' rfl) (.keep _ (.insert (blank ' ' rfl) (.keep _ (.keep _
      (.replace rfl (List.cons_ne_nil '\u3000' []) (blank '\u3000' rfl) (.keep _
        (.insert (blank ' ' rfl) (.keep _ .nil))))))))
  have simpleScans : scan "a=1" = .ok (scanned.take 3 ++ [⟨.eof, "", ⟨3, 3⟩⟩]) := by decide +kernel
  have simpleRelaid : Relaid (scanned.take 3 ++ [⟨.eof, "", ⟨3, 3⟩⟩]) "a = 1\t".toList :=
    .keep _ (.insert (blank ' ' rfl) (.keep _ (.insert (blank ' ' rfl) (.keep _
      (.keep _ (.insert (blank '\t' rfl) .nil))))))
  have simpleRead : read "a=1" =
      .ok (.leaf ⟨"a", .equal, ⟨.int 1, some ⟨.literal .int, "1", ⟨2, 3⟩⟩⟩⟩) := by decide +kernel
  obtain ⟨-, place, -, -, -, fails⟩ := read_of_relaid scans relaid
  obtain ⟨-, simplePlace, -, -, reads, -⟩ := read_of_relaid simpleScans simpleRelaid
  have fails := (fails _ failed).1
  refine ⟨scans, relaid, failed, ⟨place, fails, ?_⟩, _, _, simpleRead, reads _ simpleRead⟩
  rw [fails] at refailed
  injection refailed with same
  injection same

end Filter

end SearchQuery.Query
