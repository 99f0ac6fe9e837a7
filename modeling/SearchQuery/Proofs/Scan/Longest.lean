import Mathlib.Data.List.TakeWhile
import SearchQuery.Proofs.Scan.Spelling
import SearchQuery.Proofs.Text.Locality

/-!
# The scan of a query takes the longest pieces

Every piece of a query that is no fault spells its tag (`spells_of_mem_lexemesFrom`), and
whether a piece goes on is decided by the first character behind it (`isLocal_head`).
So a query can be cut off between two lexemes without changing those in front, and what
is typed behind a query changes its last lexeme at most
(`exists_of_lexemesFrom_eq_append`).
-/

namespace SearchQuery.Query

open Text

/-! ## One character behind a piece is enough -/

theorem beforeEquals_cons (c : Char) (rest : List Char) (alone joined : Except Fault Shape) :
    beforeEquals (c :: rest) alone joined = if c = '=' then (joined, 1) else (alone, 0) := by
  unfold beforeEquals
  by_cases equals : c = '='
  · subst equals
    rfl
  · rw [if_neg equals]
    split
    · next eq =>
        cases eq
        exact absurd rfl equals
    · rfl

theorem isLocal_beforeEquals (alone joined : Except Fault Shape) :
    IsLocal fun rest => beforeEquals rest alone joined where
  fits rest := by
    cases rest with
    | nil => exact Nat.le_refl 0
    | cons c rest =>
        rw [beforeEquals_cons]
        split
        · exact Nat.le_add_left 1 _
        · exact Nat.zero_le _
  append_eq rest more inside := by
    cases rest with
    | nil => exact absurd inside (Nat.not_lt_zero _)
    | cons c rest => rw [List.cons_append, beforeEquals_cons, beforeEquals_cons]
  eq_append rest more inside := by
    cases rest with
    | cons c rest => rw [List.cons_append, beforeEquals_cons, beforeEquals_cons]
    | nil =>
        cases more with
        | nil => rfl
        | cons c more =>
            rw [List.nil_append, beforeEquals_cons] at inside ⊢
            split at inside
            · cases inside
            · next other =>
                rw [if_neg other]
                rfl

theorem delimited_of_not_mem {delimiter : Char} {rest : List Char} (absent : delimiter ∉ rest)
    (kind : LiteralKind) (fault : Fault) :
    delimited delimiter kind fault rest = (.error fault, rest.length) := by
  rw [delimited, Delimited.closing?, if_neg absent]

theorem delimited_append {delimiter : Char} {inside : List Char} (absent : delimiter ∉ inside)
    (kind : LiteralKind) (fault : Fault) (rest : List Char) :
    delimited delimiter kind fault (inside ++ delimiter :: rest) =
      (.ok (.plain (.literal kind)), inside.length + 1) := by
  rw [delimited, Delimited.closing?_append absent]

theorem isLocal_delimited (delimiter : Char) (kind : LiteralKind) (fault : Fault) :
    IsLocal (delimited delimiter kind fault) := by
  have same : delimited delimiter kind fault = fun rest =>
      (Delimited.closing? delimiter rest).elim (.error fault, rest.length)
        (.ok (.plain (.literal kind)), ·) := by
    funext rest
    rw [delimited]
    cases Delimited.closing? delimiter rest <;> rfl
  rw [same]
  exact isLocal_closing delimiter _ _

/-- A number by what follows its first run of digits. -/
theorem number_of_point {rest places : List Char}
    (point : rest.dropWhile Char.isDigit = '.' :: places) :
    number rest = (.ok (.plain (.literal .float)),
      (rest.takeWhile Char.isDigit).length + 1 + (places.takeWhile Char.isDigit).length) := by
  simp only [number, point]

theorem number_of_no_point {rest : List Char}
    (noPoint : (rest.dropWhile Char.isDigit).head? ≠ some '.') :
    number rest = (.ok (.plain (.literal .int)), (rest.takeWhile Char.isDigit).length) := by
  unfold number
  dsimp only
  split
  · next point =>
      rw [point] at noPoint
      exact absurd rfl noPoint
  · rfl

/-- The digits at the start of a number belong to it. -/
theorem length_takeWhile_le_number (rest : List Char) :
    (rest.takeWhile Char.isDigit).length ≤ (number rest).2 := by
  unfold number
  dsimp only
  split
  · omega
  · exact Nat.le_refl _

/-- A number whose first run of digits ends at `c`, by its length. -/
theorem length_of_dropWhile_eq_cons {rest places : List Char} {c : Char}
    (found : rest.dropWhile Char.isDigit = c :: places) :
    rest.length = (rest.takeWhile Char.isDigit).length + 1 + places.length := by
  have whole := congrArg List.length
    (List.takeWhile_append_dropWhile (p := Char.isDigit) (l := rest))
  rw [List.length_append, found, List.length_cons] at whole
  omega

theorem isLocal_number : IsLocal number where
  fits rest := by
    unfold number
    dsimp only
    split
    · next places point =>
        have length := length_of_dropWhile_eq_cons point
        have bound := length_takeWhile_le Char.isDigit places
        dsimp only
        omega
    · exact length_takeWhile_le Char.isDigit rest
  append_eq rest more ends := by
    have whole := Nat.lt_of_le_of_lt (length_takeWhile_le_number rest) ends
    have same := takeWhile_append_of_lt whole more
    have behind := dropWhile_append_of_lt whole more
    cases found : rest.dropWhile Char.isDigit with
    | nil =>
        rw [found, List.nil_append] at behind
        rw [List.dropWhile_eq_nil_iff] at found
        rw [List.takeWhile_eq_self_iff.2 found] at whole
        exact absurd whole (Nat.lt_irrefl _)
    | cons c places =>
        rw [found, List.cons_append] at behind
        by_cases point : c = '.'
        · subst point
          have length := length_of_dropWhile_eq_cons found
          rw [number_of_point found] at ends
          have inside : (places.takeWhile Char.isDigit).length < places.length := by
            dsimp only at ends
            omega
          rw [number_of_point found, number_of_point behind, same,
            takeWhile_append_of_lt inside]
        · rw [@number_of_no_point rest (by simpa [found] using point),
            @number_of_no_point (rest ++ more) (by simpa [behind] using point), same]
  eq_append rest more ends := by
    have whole := Nat.le_trans (length_takeWhile_le_number (rest ++ more)) ends
    have same := takeWhile_eq_append whole
    cases found : rest.dropWhile Char.isDigit with
    | nil =>
        have all := List.takeWhile_eq_self_iff.2 (List.dropWhile_eq_nil_iff.1 found)
        have noPoint : ((rest ++ more).dropWhile Char.isDigit).head? ≠ some '.' := by
          intro point
          rcases List.head?_eq_some_iff.1 point with ⟨places, behind⟩
          rw [number_of_point behind, ← same, all] at ends
          dsimp only at ends
          omega
        rw [number_of_no_point (by simp [found]), number_of_no_point noPoint, same]
    | cons c places =>
        have length := length_of_dropWhile_eq_cons found
        have behind : (rest ++ more).dropWhile Char.isDigit = c :: (places ++ more) := by
          rw [dropWhile_append_of_lt (by omega), found, List.cons_append]
        by_cases point : c = '.'
        · subst point
          rw [number_of_point behind, ← same] at ends
          have inside : ((places ++ more).takeWhile Char.isDigit).length ≤ places.length := by
            dsimp only at ends
            omega
          rw [number_of_point found, number_of_point behind, same, takeWhile_eq_append inside]
        · rw [@number_of_no_point rest (by simpa [found] using point),
            @number_of_no_point (rest ++ more) (by simpa [behind] using point), same]

/-- Whether a piece goes on is seen at the first character behind it. -/
theorem isLocal_head (c : Char) : IsLocal (head c) := by
  apply head_cases (motive := IsLocal) c
  case openParen | closeParen | equal => exact fun _ => isLocal_single _
  case notEqual | fuzzy | greater | less => exact fun _ => isLocal_beforeEquals _ _
  case string | regexp => exact fun _ => isLocal_delimited _ _ _
  case blank | word => exact fun _ => isLocal_run _ _
  case number => exact fun _ => isLocal_number
  case unknown => exact fun _ _ _ => isLocal_single _

/-! ## Pieces spell their tags -/

/-- A first piece of `c :: rest` that is no fault spells its tag. -/
def IsSpelled (c : Char) (rest : List Char) (found : Head) : Prop :=
  ∀ shape, found.1 = .ok shape →
    Spells (shape.tag (c :: rest.take found.2)) (c :: rest.take found.2)

section Spelled

variable {c : Char} {rest : List Char}

theorem isSpelled_error (fault : Fault) (length : Nat) :
    IsSpelled c rest (.error fault, length) := by
  intro shape found
  cases found

theorem isSpelled_plain {tag : Tag} {length : Nat} {text : List Char}
    (piece : rest.take length = text) (spells : Spells tag (c :: text)) :
    IsSpelled c rest (.ok (.plain tag), length) := by
  intro shape found
  cases found
  rw [← piece] at spells
  exact spells

/-- A sign that an equals sign would change. -/
theorem isSpelled_beforeEquals {alone joined : Except Fault Shape}
    (spelledAlone : IsSpelled c rest (alone, 0))
    (spelledJoined : rest.take 1 = ['='] → IsSpelled c rest (joined, 1)) :
    IsSpelled c rest (beforeEquals rest alone joined) := by
  cases rest with
  | nil => exact spelledAlone
  | cons next rest =>
      rw [beforeEquals_cons]
      split
      · next equals => exact spelledJoined (by simp [equals])
      · exact spelledAlone

theorem isSpelled_delimited {kind : LiteralKind} (fault : Fault)
    (spells : ∀ inside, c ∉ inside → Spells (.literal kind) (c :: (inside ++ [c]))) :
    IsSpelled c rest (delimited c kind fault rest) := by
  by_cases mem : c ∈ rest
  · rcases List.eq_append_cons_of_mem mem with ⟨inside, behind, rfl, absent⟩
    rw [delimited_append absent]
    have piece : (inside ++ c :: behind).take (inside.length + 1) = inside ++ [c] := by
      rw [List.take_length_add_append, List.take_succ_cons, List.take_zero]
    exact isSpelled_plain piece (spells inside absent)
  · rw [delimited_of_not_mem mem]
    exact isSpelled_error fault _

theorem take_length_takeWhile (isIn : Char → Bool) (rest : List Char) :
    rest.take (rest.takeWhile isIn).length = rest.takeWhile isIn :=
  (List.prefix_iff_eq_take.1 (List.takeWhile_prefix isIn)).symm

theorem all_takeWhile (isIn : Char → Bool) (rest : List Char) :
    ∀ c ∈ rest.takeWhile isIn, isIn c = true :=
  fun _ mem => List.mem_takeWhile_imp mem

theorem isSpelled_number (starts : (c.isDigit || c == '-') = true) :
    IsSpelled c rest (number rest) := by
  by_cases point : (rest.dropWhile Char.isDigit).head? = some '.'
  · rcases List.head?_eq_some_iff.1 point with ⟨places, found⟩
    rw [number_of_point found]
    have split : rest = rest.takeWhile Char.isDigit ++ '.' :: places := by
      rw [← found, List.takeWhile_append_dropWhile]
    have digits := all_takeWhile Char.isDigit rest
    generalize rest.takeWhile Char.isDigit = whole at split digits
    have piece : rest.take (whole.length + 1 + (places.takeWhile Char.isDigit).length) =
        whole ++ '.' :: places.takeWhile Char.isDigit := by
      rw [split, Nat.add_assoc, List.take_length_add_append, Nat.add_comm 1,
        List.take_succ_cons, take_length_takeWhile]
    exact isSpelled_plain piece (.float starts digits (all_takeWhile _ _))
  · rw [number_of_no_point point]
    exact isSpelled_plain (take_length_takeWhile _ _) (.int starts (all_takeWhile _ _))

/-- Every first piece that is no fault spells its tag. -/
theorem isSpelled_head (c : Char) (rest : List Char) : IsSpelled c rest (head c rest) := by
  have sign (sign : Comparison) {length : Nat} {text : List Char}
      (symbol : sign.symbol.toList = c :: text) (piece : rest.take length = text) :
      IsSpelled c rest (.ok (.plain (.comparison sign)), length) :=
    isSpelled_plain piece (symbol ▸ .comparison sign)
  apply head_cases (motive := fun answer => IsSpelled c rest (answer rest)) c
  case openParen =>
    rintro rfl
    exact isSpelled_plain rfl .openParen
  case closeParen =>
    rintro rfl
    exact isSpelled_plain rfl .closeParen
  case equal =>
    rintro rfl
    exact sign .equal rfl rfl
  case notEqual =>
    rintro rfl
    exact isSpelled_beforeEquals (isSpelled_error _ _) (sign .notEqual rfl)
  case fuzzy =>
    rintro rfl
    exact isSpelled_beforeEquals (sign .fuzzy rfl rfl) (sign .like rfl)
  case greater =>
    rintro rfl
    exact isSpelled_beforeEquals (sign .greater rfl rfl) (sign .atLeast rfl)
  case less =>
    rintro rfl
    exact isSpelled_beforeEquals (sign .less rfl rfl) (sign .atMost rfl)
  case string =>
    rintro rfl
    exact isSpelled_delimited _ fun _ => .string
  case regexp =>
    rintro rfl
    exact isSpelled_delimited _ fun _ => .regexp
  case blank =>
    intro blank
    exact isSpelled_plain (take_length_takeWhile _ _) (.blank blank (all_takeWhile _ _))
  case word =>
    intro starts shape found
    cases found
    rw [take_length_takeWhile]
    exact .word starts (all_takeWhile _ _)
  case number => exact isSpelled_number
  case unknown => exact fun _ _ _ => isSpelled_error _ _

end Spelled

/-- Every piece of a cut that is no fault spells its tag. -/
theorem spells_of_mem_cut {text : List Char} {shape : Shape} {piece : List Char}
    (mem : ⟨.ok shape, piece⟩ ∈ cut head text) : Spells (shape.tag piece) piece := by
  rcases exists_head_of_mem_cut mem with ⟨c, rest, eq⟩
  rcases Piece.mk.inj eq with ⟨kind_eq, rfl⟩
  exact isSpelled_head c rest shape kind_eq.symm

/-! ## Lexemes of a query that is typed on -/

section Lexemes

variable {start : Nat} {text : List Char}

/-- Every lexeme without a fault spells its tag. -/
theorem spells_of_mem_lexemesFrom {lexeme : Lexeme} (mem : lexeme ∈ lexemesFrom start text)
    (faultless : lexeme.error = none) :
    Spells lexeme.token.tag lexeme.token.lexeme.toList := by
  rcases exists_piece_of_mem_lexemesFrom mem with ⟨position, ⟨kind, piece⟩, pieceMem, rfl⟩
  cases kind with
  | error fault => cases faultless
  | ok shape =>
      have spells := spells_of_mem_cut pieceMem
      simpa [Lexeme.token_ofPiece, Token.ofText, pieceTag] using spells

/-- Where the lexemes of a text are split, the text is split.  What is typed behind the text
changes no lexeme in front, unless all of them are in front. -/
theorem exists_of_lexemesFrom_eq_append {before behind : List Lexeme}
    (found : lexemesFrom start text = before ++ behind) :
    ∃ front rest, text = front ++ rest ∧ lexemesFrom start front = before ∧
      lexemesFrom (start + width front) rest = behind ∧
      (behind ≠ [] → ∀ more, lexemesFrom start (text ++ more) =
        before ++ lexemesFrom (start + width front) (rest ++ more)) :=
  IsLocal.exists_of_map_locate_eq_append isLocal_head _ found

end Lexemes

end SearchQuery.Query
