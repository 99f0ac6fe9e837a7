import Mathlib.Data.List.Forall2
import Mathlib.Data.List.Nodup
import SearchQuery.Proofs.Scan.Lexeme

/-!
# The faults of a query

Text that is no token is a single character or a literal without its closing delimiter
(`HasFault`), and which of them it is can be told from the text alone.  So every faulty token
has one error of its own (`IsErrorOf`), and the tolerant scan keeps the errors in the order of
the faulty tokens (`forall₂_isErrorOf`).  The strict scan fails with the first of them
(`tokens_eq_error_iff`).  The place of an error is the place of its token, so it can be found
again by the place (`errorAt_scanLenient`).
-/

namespace SearchQuery.Query

open Text

/-! ## Faulty text -/

/-- The texts that are no token, each with its fault.  A single character is one only if it is
not blank and opens no literal; a literal is one if no closing delimiter follows. -/
inductive HasFault : List Char → Fault → Prop
  | unknownEntity {c : Char} (notBlank : isBlank c = false) (noString : c ≠ '"')
      (noRegexp : c ≠ '/') : HasFault [c] (.unknownEntity c)
  | unterminatedString {inside : List Char} (absent : '"' ∉ inside) :
      HasFault ('"' :: inside) .unterminatedString
  | unterminatedRegexp {inside : List Char} (absent : '/' ∉ inside) :
      HasFault ('/' :: inside) .unterminatedRegexp

/-- A text has one fault at most. -/
theorem HasFault.unique {text : List Char} {fault other : Fault} (hasFault : HasFault text fault)
    (hasOther : HasFault text other) : fault = other := by
  cases hasFault with
  | unknownEntity notBlank noString noRegexp =>
      cases hasOther with
      | unknownEntity => rfl
      | unterminatedString => exact absurd rfl noString
      | unterminatedRegexp => exact absurd rfl noRegexp
  | unterminatedString absent =>
      cases hasOther with
      | unknownEntity notBlank noString => exact absurd rfl noString
      | unterminatedString => rfl
  | unterminatedRegexp absent =>
      cases hasOther with
      | unknownEntity notBlank noString noRegexp => exact absurd rfl noRegexp
      | unterminatedRegexp => rfl

/-- A first piece of `c :: rest` that is a fault has this fault. -/
def IsBlamed (c : Char) (rest : List Char) (found : Head) : Prop :=
  ∀ fault, found.1 = .error fault → HasFault (c :: rest.take found.2) fault

section Blamed

variable {c : Char} {rest : List Char}

theorem isBlamed_ok (shape : Shape) (length : Nat) : IsBlamed c rest (.ok shape, length) := by
  intro fault found
  cases found

theorem isBlamed_unknownEntity (noString : c ≠ '"') (noRegexp : c ≠ '/')
    (notBlank : isBlank c = false) : IsBlamed c rest (.error (.unknownEntity c), 0) := by
  intro fault found
  cases found
  exact .unknownEntity notBlank noString noRegexp

theorem isBlamed_beforeEquals {alone : Except Fault Shape} {joined : Shape}
    (blamedAlone : IsBlamed c rest (alone, 0)) :
    IsBlamed c rest (beforeEquals rest alone (.ok joined)) := by
  unfold beforeEquals
  split
  · exact isBlamed_ok joined 1
  · exact blamedAlone

theorem isBlamed_delimited {kind : LiteralKind} {fault : Fault}
    (hasFault : ∀ inside, c ∉ inside → HasFault (c :: inside) fault) :
    IsBlamed c rest (delimited c kind fault rest) := by
  by_cases mem : c ∈ rest
  · rw [delimited, Delimited.closing?, if_pos mem]
    exact isBlamed_ok _ _
  · rw [delimited, Delimited.closing?, if_neg mem]
    intro other found
    cases found
    rw [List.take_length]
    exact hasFault rest mem

theorem isBlamed_number : IsBlamed c rest (number rest) := by
  unfold number
  dsimp only
  split
  · exact isBlamed_ok _ _
  · exact isBlamed_ok _ _

/-- The fault of a first piece is that of its text. -/
theorem isBlamed_head (c : Char) (rest : List Char) : IsBlamed c rest (head c rest) := by
  apply head_cases (motive := fun answer => IsBlamed c rest (answer rest)) c
  case openParen | closeParen | equal | blank | word => exact fun _ => isBlamed_ok _ _
  case notEqual =>
    rintro rfl
    exact isBlamed_beforeEquals (isBlamed_unknownEntity (by simp) (by simp) rfl)
  case fuzzy | greater | less => exact fun _ => isBlamed_beforeEquals (isBlamed_ok _ _)
  case string =>
    rintro rfl
    exact isBlamed_delimited fun _ => .unterminatedString
  case regexp =>
    rintro rfl
    exact isBlamed_delimited fun _ => .unterminatedRegexp
  case number => exact fun _ => isBlamed_number
  case unknown => exact isBlamed_unknownEntity

end Blamed

/-! ## Errors of faulty tokens -/

theorem Fault.position?_at (fault : Fault) (position : Nat) :
    (fault.at position).position? = some position := by
  cases fault <;> rfl

/-- The error of a faulty token: that of its text, at its place. -/
def IsErrorOf (token : Token Tag) (error : Error) : Prop :=
  ∃ fault, HasFault token.lexeme.toList fault ∧ error = fault.at token.span.start

theorem IsErrorOf.position? {token : Token Tag} {error : Error}
    (isErrorOf : IsErrorOf token error) :
    error.position? = some token.span.start := by
  obtain ⟨fault, -, rfl⟩ := isErrorOf
  exact fault.position?_at token.span.start

theorem IsErrorOf.unique {token : Token Tag} {error other : Error}
    (isErrorOf : IsErrorOf token error) (isOther : IsErrorOf token other) : error = other := by
  obtain ⟨fault, hasFault, rfl⟩ := isErrorOf
  obtain ⟨fault, hasOther, rfl⟩ := isOther
  rw [hasFault.unique hasOther]

/-- The error of a lexeme is that of its token. -/
theorem isErrorOf_of_mem {start : Nat} {text : List Char} {lexeme : Lexeme} {error : Error}
    (mem : lexeme ∈ lexemesFrom start text) (faulty : lexeme.error = some error) :
    IsErrorOf lexeme.token error := by
  obtain ⟨position, ⟨kind, piece⟩, pieceMem, rfl⟩ := exists_piece_of_mem_lexemesFrom mem
  cases kind with
  | ok shape => cases faulty
  | error fault =>
      cases faulty
      obtain ⟨c, rest, eq⟩ := exists_head_of_mem_cut pieceMem
      rcases Piece.mk.inj eq with ⟨kind_eq, rfl⟩
      refine ⟨fault, ?_, rfl⟩
      rw [Lexeme.token_ofPiece, Token.ofText, String.toList_ofList]
      exact isBlamed_head c rest fault kind_eq.symm

/-- A lexeme with the tag of faults has an error. -/
theorem exists_error_of_mem {start : Nat} {text : List Char} {lexeme : Lexeme}
    (mem : lexeme ∈ lexemesFrom start text) (tag : lexeme.token.tag = .error) :
    ∃ error, lexeme.error = some error ∧ IsErrorOf lexeme.token error := by
  cases faulty : lexeme.error with
  | none => exact absurd tag ((error_eq_none_iff_of_mem mem).1 faulty)
  | some error => exact ⟨error, rfl, isErrorOf_of_mem mem faulty⟩

/-- The errors of lexemes are those of the faulty tokens among them, in the same order. -/
theorem forall₂_isErrorOf {found : List Lexeme}
    (marked : ∀ lexeme ∈ found, (lexeme.error = none ↔ lexeme.token.tag ≠ .error))
    (own : ∀ lexeme ∈ found, ∀ error, lexeme.error = some error → IsErrorOf lexeme.token error) :
    List.Forall₂ IsErrorOf ((found.map Lexeme.token).filter (·.tag = .error))
      (found.filterMap Lexeme.error) := by
  induction found with
  | nil => exact .nil
  | cons lexeme found ih =>
      rw [List.forall_mem_cons] at marked own
      have rest := ih marked.2 own.2
      cases faulty : lexeme.error with
      | none =>
          have tag := marked.1.1 faulty
          rw [List.filterMap_cons_none faulty, List.map_cons, List.filter_cons_of_neg (by simpa)]
          exact rest
      | some error =>
          have tag : lexeme.token.tag = .error := by
            by_contra other
            cases faulty.symm.trans (marked.1.2 other)
          rw [List.filterMap_cons_some faulty, List.map_cons, List.filter_cons_of_pos (by simpa)]
          exact .cons (own.1 error faulty) rest

/-! ## The strict scan -/

/-- The strict scan of lexemes fails with the first of their errors. -/
theorem mapM_strict_eq_error_iff {found : List Lexeme} {error : Error} :
    found.mapM Lexeme.strict = .error error ↔
      (found.filterMap Lexeme.error).head? = some error := by
  induction found with
  | nil => simp [pure, Except.pure]
  | cons lexeme found ih =>
      cases faulty : lexeme.error with
      | some own =>
          rw [List.filterMap_cons_some faulty]
          simp [Lexeme.strict, faulty, bind, Except.bind]
      | none =>
          rw [List.filterMap_cons_none faulty, ← ih]
          cases rest : found.mapM Lexeme.strict <;>
            simp [Lexeme.strict, faulty, rest, bind, Except.bind, pure, Except.pure]

theorem tokens_eq_error_iff {query : String} {error : Error} :
    tokens query = .error error ↔ (scanLenient query).errors.head? = some error :=
  mapM_strict_eq_error_iff

/-! ## Places of tokens -/

section Places

variable {query : String}

/-- The tokens of a query and the mark at its end, as they stand. -/
theorem tokens_scanLenient (query : String) :
    (scanLenient query).tokens = Token.marked .eof 0 ((lexemes query).map Lexeme.token) := by
  rw [scanLenient, Token.marked, textOf_lexemes, Nat.zero_add]
  rfl

/-- A token is known by the place where it starts. -/
theorem eq_of_start_eq {first second : Token Tag}
    (firstMem : first ∈ (scanLenient query).tokens)
    (secondMem : second ∈ (scanLenient query).tokens)
    (same : first.span.start = second.span.start) : first = second := by
  rw [tokens_scanLenient] at firstMem secondMem
  have ordered := (placed_lexemes query).pairwise_start .eof
  have distinct : ((Token.marked .eof 0 ((lexemes query).map Lexeme.token)).map
      fun token => token.span.start).Nodup :=
    List.pairwise_map.2 (ordered.imp Nat.ne_of_lt)
  exact List.inj_on_of_nodup_map distinct firstMem secondMem same

/-- Behind the tokens of the lexemes there is an empty mark at the end of the query. -/
theorem tokens_scanLenient_eq (query : String) :
    (scanLenient query).tokens = (lexemes query).map Lexeme.token ++
      [⟨.eof, "", ⟨query.utf8ByteSize, query.utf8ByteSize⟩⟩] := by
  rw [← width_toList]
  rfl

/-- The faulty tokens of a query with their errors. -/
theorem forall₂_isErrorOf_scanLenient (query : String) :
    List.Forall₂ IsErrorOf ((scanLenient query).tokens.filter (·.tag = .error))
      (scanLenient query).errors := by
  have own := forall₂_isErrorOf (fun _ => error_eq_none_iff_of_mem) fun _ mem _ =>
    @isErrorOf_of_mem 0 query.toList _ _ mem
  have mark : [endMark query].filter (·.tag = .error) = [] := rfl
  rw [scanLenient, List.filter_append, mark, List.append_nil]
  exact own

/-- The errors are about the places of the faulty tokens, in the same order. -/
theorem map_position?_errors (query : String) :
    (scanLenient query).errors.map Error.position? =
      ((scanLenient query).tokens.filter (·.tag = .error)).map fun token =>
        some token.span.start := by
  symm
  rw [← List.forall₂_eq_eq_eq, List.forall₂_map_left_iff, List.forall₂_map_right_iff]
  exact (forall₂_isErrorOf_scanLenient query).imp fun _ _ own => own.position?.symm

/-- Every faulty token has its error among those of the scan. -/
theorem exists_error_of_mem_tokens {token : Token Tag}
    (mem : token ∈ (scanLenient query).tokens) (tag : token.tag = .error) :
    ∃ error ∈ (scanLenient query).errors, IsErrorOf token error := by
  rcases List.mem_append.1 mem with inside | isMark
  · obtain ⟨lexeme, lexemeMem, rfl⟩ := List.mem_map.1 inside
    obtain ⟨error, faulty, own⟩ := exists_error_of_mem lexemeMem tag
    exact ⟨error, List.mem_filterMap.2 ⟨lexeme, lexemeMem, faulty⟩, own⟩
  · rw [List.mem_singleton.1 isMark] at tag
    cases tag

/-- Every error of the scan is that of a faulty token. -/
theorem exists_token_of_mem_errors {error : Error} (mem : error ∈ (scanLenient query).errors) :
    ∃ token ∈ (scanLenient query).tokens, token.tag = .error ∧ IsErrorOf token error := by
  obtain ⟨lexeme, lexemeMem, faulty⟩ := List.mem_filterMap.1 mem
  refine ⟨lexeme.token, List.mem_append_left _ (List.mem_map_of_mem lexemeMem), ?_,
    isErrorOf_of_mem lexemeMem faulty⟩
  by_contra other
  cases faulty.symm.trans ((error_eq_none_iff_of_mem lexemeMem).2 other)

theorem errors_eq_nil_iff :
    (scanLenient query).errors = [] ↔ ∀ lexeme ∈ lexemes query, lexeme.error = none :=
  List.filterMap_eq_nil_iff

/-- By its place the own error of a faulty token is found, and nothing is found elsewhere. -/
theorem errorAt_scanLenient {position : Nat} {error : Error} :
    (scanLenient query).errorAt position = some error ↔
      ∃ token ∈ (scanLenient query).tokens, token.tag = .error ∧ token.span.start = position ∧
        IsErrorOf token error := by
  constructor
  · intro found
    have atPosition : error.position? = some position := by simpa using List.find?_some found
    obtain ⟨token, mem, tag, own⟩ := exists_token_of_mem_errors (List.mem_of_find?_eq_some found)
    exact ⟨token, mem, tag, Option.some.inj (own.position?.symm.trans atPosition), own⟩
  · rintro ⟨token, mem, tag, rfl, own⟩
    obtain ⟨listed, listedMem, isListed⟩ := exists_error_of_mem_tokens mem tag
    cases found : (scanLenient query).errorAt token.span.start with
    | none =>
        have missing := List.find?_eq_none.1 found listed listedMem
        simp [isListed.position?] at missing
    | some other =>
        have atPosition : other.position? = some token.span.start := by
          simpa using List.find?_some found
        obtain ⟨holder, holderMem, -, isOther⟩ :=
          exists_token_of_mem_errors (List.mem_of_find?_eq_some found)
        -- no two tokens start at one place, so the error that is found is that of this token
        obtain rfl : holder = token :=
          eq_of_start_eq holderMem mem (Option.some.inj (isOther.position?.symm.trans atPosition))
        rw [isOther.unique own]

end Places

end SearchQuery.Query
