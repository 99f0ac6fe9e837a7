import Mathlib.Data.List.Forall2
import SearchQuery.Proofs.Grammar.Basic

/-!
# The clauses of a phrase

Parentheses and connectives give a phrase its shape.  All its other tokens come in clauses of
a field, a comparison and a literal, and in the order of the text these are the conditions of
the filter that the phrase stands for (`Derives.hasClauses`).
-/

namespace SearchQuery.Query

open Text

theorem exists_of_mem_left {α β : Type} {R : α → β → Prop} {first : List α} {second : List β}
    (related : List.Forall₂ R first second) : ∀ a ∈ first, ∃ b ∈ second, R a b := by
  induction related with
  | nil => simp
  | cons here rest ih =>
      rw [List.forall_mem_cons]
      refine ⟨⟨_, List.mem_cons_self, here⟩, ?_⟩
      intro a mem
      rcases ih a mem with ⟨b, found, related⟩
      exact ⟨b, List.mem_cons_of_mem _ found, related⟩

/-- The tokens of a condition. -/
structure Clause where
  field : Token Tag
  sign : Token Tag
  value : Token Tag

namespace Clause

/-- The tokens of the clause in the order of the text. -/
def tokens (clause : Clause) : List (Token Tag) :=
  [clause.field, clause.sign, clause.value]

/-- The clause is read as the condition. -/
structure IsReadAs (clause : Clause) (condition : Condition) : Prop where
  fieldTag : clause.field.tag = .field
  field : clause.field.lexeme = condition.field
  signTag : clause.sign.tag = .comparison condition.comparison
  value : ∃ kind, clause.value.tag = .literal kind ∧
    Literal.read? kind clause.value.lexeme = some condition.operand.literal
  source : condition.operand.source = some clause.value

end Clause

/-- Whether a token with this tag belongs to a clause. -/
def Tag.isOfClause : Tag → Bool
  | field => true
  | comparison _ => true
  | literal _ => true
  | _ => false

/-- The tokens hold one clause for each condition of the filter, and besides these only tokens
that give the phrase its shape. -/
def HasClauses (tokens : List (Token Tag)) (filter : Filter) : Prop :=
  ∃ clauses : List Clause,
    tokens.filter (·.tag.isOfClause) = clauses.flatMap Clause.tokens ∧
      List.Forall₂ Clause.IsReadAs clauses filter.conditions

namespace HasClauses

variable {tokens phrase : List (Token Tag)} {filter right : Filter}

/-- A connective joins the clauses of its two sides. -/
theorem combine (clauses : HasClauses tokens filter) {word : Token Tag}
    {connective : Connective} (wordTag : word.tag = .connective connective)
    (others : HasClauses phrase right) :
    HasClauses (tokens ++ word :: phrase) (.combine connective filter right) := by
  rcases clauses with ⟨left, leftTokens, leftRead⟩
  rcases others with ⟨more, moreTokens, moreRead⟩
  have wordLeftOut : (word :: phrase).filter (·.tag.isOfClause) =
      phrase.filter (·.tag.isOfClause) :=
    List.filter_cons_of_neg (by simp [wordTag, Tag.isOfClause])
  refine ⟨left ++ more, ?_, List.rel_append leftRead moreRead⟩
  rw [List.filter_append, wordLeftOut, leftTokens, moreTokens, List.flatMap_append]

/-- A chain has the clauses of all its phrases. -/
theorem foldl {connective : Connective} {links : List Link}
    (first : HasClauses tokens filter)
    (words : ∀ link ∈ links, link.word.tag = .connective connective)
    (phrases : ∀ link ∈ links, HasClauses link.phrase link.filter) :
    HasClauses (tokens ++ links.flatMap Link.tokens)
      (links.foldl (Link.attach connective) filter) := by
  induction links generalizing tokens filter with
  | nil =>
      rw [List.flatMap_nil, List.append_nil]
      exact first
  | cons link links ih =>
      rcases List.forall_mem_cons.1 words with ⟨wordTag, otherWords⟩
      rcases List.forall_mem_cons.1 phrases with ⟨phrase, otherPhrases⟩
      rw [List.flatMap_cons, ← List.append_assoc]
      exact ih (first.combine wordTag phrase) otherWords otherPhrases

/-- Every condition is read from a clause of the phrase. -/
theorem exists_clause (clauses : HasClauses tokens filter) {condition : Condition}
    (mem : condition ∈ filter.conditions) :
    ∃ clause : Clause, clause.IsReadAs condition ∧ ∀ token ∈ clause.tokens, token ∈ tokens := by
  rcases clauses with ⟨found, tokens_eq, read⟩
  rcases exists_of_mem_left read.flip condition mem with ⟨clause, clauseMem, isRead⟩
  refine ⟨clause, isRead, ?_⟩
  intro token tokenMem
  have kept : token ∈ tokens.filter (·.tag.isOfClause) := by
    rw [tokens_eq]
    exact List.mem_flatMap_of_mem clauseMem tokenMem
  exact List.mem_of_mem_filter kept

/-- Every literal of the phrase is the value of a condition. -/
theorem exists_condition (clauses : HasClauses tokens filter) {token : Token Tag}
    {kind : LiteralKind} (mem : token ∈ tokens) (tag : token.tag = .literal kind) :
    ∃ condition ∈ filter.conditions,
      Literal.read? kind token.lexeme = some condition.operand.literal := by
  rcases clauses with ⟨found, tokens_eq, read⟩
  have kept : token ∈ tokens.filter (·.tag.isOfClause) :=
    List.mem_filter.2 ⟨mem, by simp [tag, Tag.isOfClause]⟩
  rw [tokens_eq, List.mem_flatMap] at kept
  rcases kept with ⟨clause, clauseMem, tokenMem⟩
  rcases exists_of_mem_left read clause clauseMem with ⟨condition, conditionMem, isRead⟩
  refine ⟨condition, conditionMem, ?_⟩
  simp only [Clause.tokens, List.mem_cons, List.not_mem_nil, or_false] at tokenMem
  rcases tokenMem with rfl | rfl | rfl
  · cases isRead.fieldTag.symm.trans tag
  · cases isRead.signTag.symm.trans tag
  · rcases isRead.value with ⟨kind', valueTag, spells⟩
    cases valueTag.symm.trans tag
    exact spells

end HasClauses

/-- A phrase has one clause for each condition of its filter. -/
theorem Derives.hasClauses {stratum : Stratum} {tokens : List (Token Tag)} {filter : Filter}
    (derives : Derives stratum tokens filter) : HasClauses tokens filter := by
  induction derives with
  | @condition field sign value comparison kind literal fieldTag signTag valueTag spells =>
      have read : Clause.IsReadAs ⟨field, sign, value⟩
          ⟨field.lexeme, comparison, ⟨literal, some value⟩⟩ :=
        ⟨fieldTag, rfl, signTag, ⟨kind, valueTag, spells⟩, rfl⟩
      refine ⟨[⟨field, sign, value⟩], ?_, .cons read .nil⟩
      simp [fieldTag, signTag, valueTag, Tag.isOfClause, Clause.tokens]
  | @group opening closing tokens filter openingTag closingTag inner ih =>
      rcases ih with ⟨clauses, tokens_eq, read⟩
      refine ⟨clauses, ?_, read⟩
      simpa [openingTag, closingTag, Tag.isOfClause] using tokens_eq
  | chain first words phrases ihFirst ihPhrases => exact ihFirst.foldl words ihPhrases

end SearchQuery.Query
