import SearchQuery.Proofs.Text.Tiling
import SearchQuery.Query.Lexeme

/-!
# What the lexemes of a query are

The lexemes of a query stand side by side and put together give the query
(`placed_lexemesFrom`, `textOf_lexemesFrom`).  What is true of all of them is read
off the first pieces, case by case (`head_cases`).  A lexeme has a fault exactly
when its tag says so, and no lexeme is taken for the mark at the end.  The strict
scan succeeds exactly when there is no fault, and then it gives the tokens of all
lexemes (`tokens_eq_ok_iff`).
-/

namespace SearchQuery.Text

universe u

/-- Every piece of a cut comes from the answer at its first character. -/
theorem exists_head_of_mem_cut {κ : Type u} {head : Char → List Char → κ × Nat}
    {text : List Char} {piece : Piece κ} (mem : piece ∈ cut head text) :
    ∃ c rest, piece = ⟨(head c rest).1, c :: rest.take (head c rest).2⟩ := by
  fun_induction cut head text with
  | case1 => cases mem
  | case2 c rest ih =>
      cases mem with
      | head => exact ⟨c, rest, rfl⟩
      | tail _ later => exact ih later

/-- A located piece is one of the pieces. -/
theorem mem_of_mem_locate {κ : Type u} {start : Nat} {pieces : List (Piece κ)}
    {entry : Nat × Piece κ} (mem : entry ∈ locate start pieces) : entry.2 ∈ pieces := by
  induction pieces generalizing start with
  | nil => cases mem
  | cons piece pieces ih =>
      rw [locate_cons, List.mem_cons] at mem
      rcases mem with rfl | later
      · exact List.mem_cons_self
      · exact List.mem_cons_of_mem _ (ih later)

/-- Without their positions the located pieces are the pieces. -/
theorem map_snd_locate {κ : Type u} (start : Nat) (pieces : List (Piece κ)) :
    (locate start pieces).map Prod.snd = pieces := by
  induction pieces generalizing start with
  | nil => rfl
  | cons piece pieces ih => rw [locate_cons, List.map_cons, ih]

end SearchQuery.Text

namespace SearchQuery.Query

open Text

/-- The tag of a piece: a fault has the tag `error`. -/
def pieceTag (piece : Piece (Except Fault Shape)) : Tag :=
  match piece.kind with
  | .ok shape => shape.tag piece.text
  | .error _ => .error

theorem Lexeme.token_ofPiece (start : Nat) (piece : Piece (Except Fault Shape)) :
    (Lexeme.ofPiece start piece).token = .ofText (pieceTag piece) start piece.text := by
  unfold Lexeme.ofPiece pieceTag
  cases piece.kind <;> rfl

/-! ## The first piece -/

section Cases

variable {motive : (List Char → Head) → Prop}

theorem ite_cases {condition : Prop} [Decidable condition] {first second : List Char → Head}
    (holds : condition → motive first) (fails : ¬ condition → motive second) :
    motive fun rest => if condition then first rest else second rest := by
  by_cases met : condition
  · simpa only [if_pos met] using holds met
  · simpa only [if_neg met] using fails met

/-- The first pieces by their first characters.  Whatever is to be known about all first pieces
is shown of each of these. -/
theorem head_cases (c : Char)
    (openParen : c = '(' → motive fun _ => (.ok (.plain .openParen), 0))
    (closeParen : c = ')' → motive fun _ => (.ok (.plain .closeParen), 0))
    (equal : c = '=' → motive fun _ => (.ok (.plain (.comparison .equal)), 0))
    (notEqual : c = '!' → motive fun rest =>
      beforeEquals rest (.error (.unknownEntity c)) (.ok (.plain (.comparison .notEqual))))
    (fuzzy : c = '~' → motive fun rest =>
      beforeEquals rest (.ok (.plain (.comparison .fuzzy))) (.ok (.plain (.comparison .like))))
    (greater : c = '>' → motive fun rest =>
      beforeEquals rest (.ok (.plain (.comparison .greater)))
        (.ok (.plain (.comparison .atLeast))))
    (less : c = '<' → motive fun rest =>
      beforeEquals rest (.ok (.plain (.comparison .less))) (.ok (.plain (.comparison .atMost))))
    (string : c = '"' → motive (delimited c .string .unterminatedString))
    (regexp : c = '/' → motive (delimited c .regexp .unterminatedRegexp))
    (blank : isBlank c = true → motive fun rest =>
      (.ok (.plain .blank), (rest.takeWhile isBlank).length))
    (word : isWordStart c = true → motive fun rest =>
      (.ok .word, (rest.takeWhile isWordPart).length))
    (number : (c.isDigit || c == '-') = true → motive Query.number)
    (unknown : c ≠ '"' → c ≠ '/' → isBlank c = false → motive fun _ =>
      (.error (.unknownEntity c), 0)) : motive (head c) := by
  unfold head
  apply ite_cases openParen
  intro _
  apply ite_cases closeParen
  intro _
  apply ite_cases equal
  intro _
  apply ite_cases notEqual
  intro _
  apply ite_cases fuzzy
  intro _
  apply ite_cases greater
  intro _
  apply ite_cases less
  intro _
  apply ite_cases string
  intro noString
  apply ite_cases regexp
  intro noRegexp
  apply ite_cases blank
  intro notBlank
  apply ite_cases word
  intro _
  apply ite_cases number
  intro _
  exact unknown noString noRegexp (Bool.eq_false_iff.2 notBlank)

end Cases

/-- A first piece that gives a token neither the tag of the mark nor the tag of
faults. -/
def IsProper (found : Head) : Prop :=
  ∀ shape, found.1 = .ok shape → ∀ text, shape.tag text ≠ .eof ∧ shape.tag text ≠ .error

theorem isProper_error (fault : Fault) (length : Nat) : IsProper (.error fault, length) := by
  intro shape found
  cases found

theorem isProper_plain {tag : Tag} (notEof : tag ≠ .eof) (notError : tag ≠ .error)
    (length : Nat) : IsProper (.ok (.plain tag), length) := by
  intro shape found text
  cases found
  exact ⟨notEof, notError⟩

theorem isProper_comparison (sign : Comparison) (length : Nat) :
    IsProper (.ok (.plain (.comparison sign)), length) :=
  isProper_plain Tag.noConfusion Tag.noConfusion length

theorem isProper_literal (kind : LiteralKind) (length : Nat) :
    IsProper (.ok (.plain (.literal kind)), length) :=
  isProper_plain Tag.noConfusion Tag.noConfusion length

theorem isProper_word (length : Nat) : IsProper (.ok .word, length) := by
  intro shape found text
  cases found
  simp only [Shape.tag]
  unfold Tag.ofWord
  split <;> exact ⟨Tag.noConfusion, Tag.noConfusion⟩

theorem isProper_beforeEquals {rest : List Char} {alone joined : Except Fault Shape}
    (properAlone : IsProper (alone, 0)) (properJoined : IsProper (joined, 1)) :
    IsProper (beforeEquals rest alone joined) := by
  unfold beforeEquals
  split
  · exact properJoined
  · exact properAlone

theorem isProper_delimited (delimiter : Char) (kind : LiteralKind) (fault : Fault)
    (rest : List Char) : IsProper (delimited delimiter kind fault rest) := by
  unfold delimited
  split
  · exact isProper_literal kind _
  · exact isProper_error fault _

theorem isProper_number (rest : List Char) : IsProper (number rest) := by
  unfold number
  dsimp only
  split
  · exact isProper_literal .float _
  · exact isProper_literal .int _

/-- No class of a piece is the mark or the tag of faults. -/
theorem isProper_head (c : Char) (rest : List Char) : IsProper (head c rest) := by
  apply head_cases (motive := fun answer => IsProper (answer rest)) c
  case openParen | closeParen | blank =>
    exact fun _ => isProper_plain Tag.noConfusion Tag.noConfusion _
  case equal => exact fun _ => isProper_comparison _ _
  case notEqual =>
    exact fun _ => isProper_beforeEquals (isProper_error _ _) (isProper_comparison _ _)
  case fuzzy | greater | less =>
    exact fun _ => isProper_beforeEquals (isProper_comparison _ _) (isProper_comparison _ _)
  case string | regexp => exact fun _ => isProper_delimited _ _ _ _
  case word => exact fun _ => isProper_word _
  case number => exact fun _ => isProper_number rest
  case unknown => exact fun _ _ _ => isProper_error _ _

/-- No piece is the mark, and a piece has the tag of faults only for a fault. -/
theorem pieceTag_of_mem_cut {text : List Char} {piece : Piece (Except Fault Shape)}
    (mem : piece ∈ cut head text) :
    pieceTag piece ≠ .eof ∧ (pieceTag piece = .error ↔ ∃ fault, piece.kind = .error fault) := by
  rcases exists_head_of_mem_cut mem with ⟨c, rest, rfl⟩
  cases found : (head c rest).1 with
  | error fault => simp [pieceTag]
  | ok shape =>
      have proper := isProper_head c rest shape found (c :: rest.take (head c rest).2)
      simpa [pieceTag] using proper

/-! ## The lexemes -/

section Lexemes

variable {start : Nat} {text : List Char}

/-- The tokens of the lexemes, as located pieces. -/
theorem map_token_lexemesFrom (start : Nat) (text : List Char) :
    (lexemesFrom start text).map Lexeme.token =
      (locate start (cut head text)).map fun entry =>
        .ofText (pieceTag entry.2) entry.1 entry.2.text := by
  rw [lexemesFrom, List.map_map]
  exact List.map_congr_left fun entry _ => Lexeme.token_ofPiece entry.1 entry.2

theorem placed_lexemesFrom (start : Nat) (text : List Char) :
    Token.Placed start ((lexemesFrom start text).map Lexeme.token) := by
  rw [map_token_lexemesFrom]
  exact Token.placed_locate pieceTag start fun _ => text_ne_nil_of_mem_cut

theorem textOf_lexemesFrom (start : Nat) (text : List Char) :
    Token.textOf ((lexemesFrom start text).map Lexeme.token) = text := by
  rw [map_token_lexemesFrom, Token.textOf_locate, flatMap_text_cut]

theorem placed_lexemes (query : String) :
    Token.Placed 0 ((lexemes query).map Lexeme.token) :=
  placed_lexemesFrom 0 query.toList

theorem textOf_lexemes (query : String) :
    Token.textOf ((lexemes query).map Lexeme.token) = query.toList :=
  textOf_lexemesFrom 0 query.toList

/-- Every lexeme comes from a piece. -/
theorem exists_piece_of_mem_lexemesFrom {lexeme : Lexeme}
    (mem : lexeme ∈ lexemesFrom start text) :
    ∃ position, ∃ piece ∈ cut head text, lexeme = .ofPiece position piece := by
  rcases List.mem_map.1 mem with ⟨⟨position, piece⟩, located, rfl⟩
  exact ⟨position, piece, mem_of_mem_locate located, rfl⟩

/-- No lexeme is taken for the mark at the end. -/
theorem tag_ne_eof_of_mem {lexeme : Lexeme} (mem : lexeme ∈ lexemesFrom start text) :
    lexeme.token.tag ≠ .eof := by
  rcases exists_piece_of_mem_lexemesFrom mem with ⟨position, piece, pieceMem, rfl⟩
  rw [Lexeme.token_ofPiece]
  exact (pieceTag_of_mem_cut pieceMem).1

/-- A lexeme has an error exactly when its tag says so. -/
theorem error_eq_none_iff_of_mem {lexeme : Lexeme} (mem : lexeme ∈ lexemesFrom start text) :
    lexeme.error = none ↔ lexeme.token.tag ≠ .error := by
  rcases exists_piece_of_mem_lexemesFrom mem with ⟨position, piece, pieceMem, rfl⟩
  rw [Lexeme.token_ofPiece, Token.ofText, ne_eq, (pieceTag_of_mem_cut pieceMem).2]
  unfold Lexeme.ofPiece
  cases piece.kind <;> simp

/-- A fault is reported at the place of its lexeme. -/
theorem position?_of_error_eq_some {lexeme : Lexeme} {error : Error}
    (mem : lexeme ∈ lexemesFrom start text) (faulty : lexeme.error = some error) :
    error.position? = some lexeme.token.span.start := by
  rcases exists_piece_of_mem_lexemesFrom mem with ⟨position, ⟨kind, piece⟩, -, rfl⟩
  cases kind with
  | ok shape => cases faulty
  | error fault =>
      cases faulty
      cases fault <;> rfl

end Lexemes

/-- The strict scan gives the tokens of all lexemes if none has a fault, and fails
otherwise. -/
theorem mapM_strict_eq_ok_iff {found : List Lexeme} {scanned : List (Token Tag)} :
    found.mapM Lexeme.strict = .ok scanned ↔
      (∀ lexeme ∈ found, lexeme.error = none) ∧ scanned = found.map Lexeme.token := by
  induction found generalizing scanned with
  | nil => simp [pure, Except.pure, eq_comm]
  | cons lexeme found ih =>
      cases fault : lexeme.error with
      | some error =>
          simp [Lexeme.strict, fault, bind, Except.bind]
      | none =>
          cases rest : found.mapM Lexeme.strict with
          | error error =>
              have faulty : ¬ ∀ lexeme ∈ found, lexeme.error = none := by
                intro faultless
                have all := ih.2 ⟨faultless, rfl⟩
                rw [rest] at all
                cases all
              simp [Lexeme.strict, fault, rest, bind, Except.bind, faulty]
          | ok tokens =>
              rcases ih.1 rest with ⟨faultless, rfl⟩
              simp only [List.mapM_cons, Lexeme.strict, fault, rest, bind, Except.bind, pure,
                Except.pure, List.forall_mem_cons, List.map_cons, Except.ok.injEq, true_and]
              constructor
              · rintro rfl
                exact ⟨faultless, rfl⟩
              · rintro ⟨-, rfl⟩
                rfl

theorem tokens_eq_ok_iff {query : String} {scanned : List (Token Tag)} :
    tokens query = .ok scanned ↔
      (∀ lexeme ∈ lexemes query, lexeme.error = none) ∧
        scanned = (lexemes query).map Lexeme.token :=
  mapM_strict_eq_ok_iff

end SearchQuery.Query
