import SearchQuery.Proofs.Search.Spelling

/-!
# The scan of a search text takes the longest pieces

The tokens of a search text stand side by side and put together give the text.  Whether a
piece goes on is decided by the first character behind it (`isLocal_head`), and the class of a
piece by its own first character.  So a search text can be cut off between two tokens without
changing those in front (`exists_of_tokensFrom_eq_append`); and what is typed behind a search
text makes its last token longer at most, without changing its tag or its start
(`exists_of_tokens_append`).
-/

namespace SearchQuery.Search

open Text

/-! ## One character behind a piece is enough -/

/-- A phrase or a pattern ends at the first closing delimiter, or with the text. -/
theorem isLocal_delimited (delimiter : Char) (tag : Tag) :
    IsLocal fun rest => (tag, (Delimited.closing? delimiter rest).getD rest.length) := by
  have same : (fun rest => (tag, (Delimited.closing? delimiter rest).getD rest.length)) =
      fun rest =>
        (Delimited.closing? delimiter rest).elim (tag, rest.length) (tag, ·) := by
    funext rest
    cases Delimited.closing? delimiter rest <;> rfl
  rw [same]
  exact isLocal_closing delimiter tag tag

/-- Whether a piece goes on is seen at the first character behind it. -/
theorem isLocal_head (c : Char) : IsLocal (head c) := by
  unfold head
  apply isLocal_ite (isLocal_single _)
  apply isLocal_ite (isLocal_single _)
  apply isLocal_ite (isLocal_delimited _ _)
  apply isLocal_ite (isLocal_delimited _ _)
  apply isLocal_ite (isLocal_run _ _)
  exact isLocal_ite (isLocal_single _) (isLocal_run _ _)

/-- The class of a piece is seen at its first character. -/
theorem fst_head_eq (c : Char) (rest other : List Char) : (head c rest).1 = (head c other).1 := by
  unfold head
  split_ifs <;> rfl

/-! ## Tokens and their places -/

section Tokens

variable {start : Nat} {text : List Char}

theorem placed_tokensFrom (start : Nat) (text : List Char) :
    Token.Placed start (tokensFrom start text) :=
  Token.placed_locate Piece.kind start fun _ => text_ne_nil_of_mem_cut

theorem textOf_tokensFrom (start : Nat) (text : List Char) :
    Token.textOf (tokensFrom start text) = text := by
  rw [tokensFrom, Token.textOf_locate Piece.kind, flatMap_text_cut]

/-- Where the tokens of a text are split, the text is split.  What is typed behind the text
changes no token in front, unless all of them are in front. -/
theorem exists_of_tokensFrom_eq_append {before behind : List (Token Tag)}
    (found : tokensFrom start text = before ++ behind) :
    ∃ front rest, text = front ++ rest ∧ tokensFrom start front = before ∧
      tokensFrom (start + width front) rest = behind ∧
      (behind ≠ [] → ∀ more, tokensFrom start (text ++ more) =
        before ++ tokensFrom (start + width front) (rest ++ more)) :=
  IsLocal.exists_of_map_locate_eq_append isLocal_head _ found

/-- The first token of a text has the tag of its first character, and starts where the text
starts. -/
theorem exists_tokensFrom_cons (start : Nat) (c : Char) (rest : List Char) :
    ∃ token behind, tokensFrom start (c :: rest) = token :: behind ∧
      token.tag = (head c []).1 ∧ token.span.start = start := by
  rw [tokensFrom, cut_cons, locate_cons, List.map_cons]
  exact ⟨_, _, rfl, fst_head_eq c rest [], rfl⟩

/-- What is typed behind a text leaves every token its tag and its start, and those in front of
it as they are. -/
theorem exists_of_tokens_append {text : String} {token : Token Tag}
    {before behind : List (Token Tag)} (found : tokens text = before ++ token :: behind)
    (more : String) :
    ∃ later rest, tokens (text ++ more) = before ++ later :: rest ∧ later.tag = token.tag ∧
      later.span.start = token.span.start := by
  rcases exists_of_tokensFrom_eq_append found with ⟨front, rest, -, -, here, typed⟩
  cases rest with
  | nil => simp [tokensFrom] at here
  | cons c rest =>
      rcases exists_tokensFrom_cons (0 + width front) c rest with
        ⟨first, others, first_eq, firstTag, firstStart⟩
      rcases exists_tokensFrom_cons (0 + width front) c (rest ++ more.toList) with
        ⟨later, others', later_eq, laterTag, laterStart⟩
      rw [first_eq, List.cons.injEq] at here
      rcases here with ⟨rfl, -⟩
      refine ⟨later, others', ?_, laterTag.trans firstTag.symm, laterStart.trans firstStart.symm⟩
      rw [tokens, String.toList_append, typed (List.cons_ne_nil _ _), List.cons_append, later_eq]

end Tokens

end SearchQuery.Search
