import SearchQuery.Proofs.Tree.Leaves

/-!
# The outline of a reader of trees

Whether a reader takes a lexeme is decided by the tag of the lexeme, by what the reader waits
for and by the number of groups that are open; what it has read does not matter.  The outline
keeps these two (`TreeReader.outline`), and its steps are exactly those of the reader
(`TreeReader.outline_step`).  So a query is read as a tree exactly when its tags lead the
outline to the end of an operand outside all groups (`SyntaxTree.exists_read_iff`).
-/

namespace SearchQuery.Query

open Text

/-- What a reader waits for, without the parts that it has read towards it. -/
inductive Awaited
  | operand
  | comparison
  | value
  | connective
  deriving DecidableEq

/-- What a reader waits for, and the number of groups that are open. -/
structure Outline where
  awaited : Awaited
  depth : Nat
  deriving DecidableEq

namespace Outline

/-- Before the first lexeme. -/
def start : Outline :=
  ⟨.operand, 0⟩

/-- At the end of a query that is read. -/
def done : Outline :=
  ⟨.connective, 0⟩

/-- Takes one tag, if a token with this tag can stand here. -/
def step? (outline : Outline) (tag : Tag) : Option Outline :=
  match outline.awaited, tag, outline.depth with
  | _, .blank, _ => some outline
  | .operand, .openParen, depth => some ⟨.operand, depth + 1⟩
  | .operand, .field, depth => some ⟨.comparison, depth⟩
  | .comparison, .comparison _, depth => some ⟨.value, depth⟩
  | .value, .literal _, depth => some ⟨.connective, depth⟩
  | .value, .error, depth => some ⟨.connective, depth⟩
  | .connective, .connective _, depth => some ⟨.operand, depth⟩
  | .connective, .closeParen, depth + 1 => some ⟨.connective, depth⟩
  | _, _, _ => none

/-- Takes tags one after the other. -/
def run? (outline : Outline) (tags : List Tag) : Option Outline :=
  tags.foldlM step? outline

@[simp]
theorem run?_nil (outline : Outline) : outline.run? [] = some outline :=
  rfl

@[simp]
theorem run?_cons (outline : Outline) (tag : Tag) (tags : List Tag) :
    outline.run? (tag :: tags) = (outline.step? tag).bind fun next => next.run? tags :=
  rfl

theorem run?_append (outline : Outline) (first second : List Tag) :
    outline.run? (first ++ second) =
      (outline.run? first).bind fun next => next.run? second :=
  List.foldlM_append

end Outline

/-- What is waited for. -/
@[simp]
def TreeExpected.awaited : TreeExpected → Awaited
  | operand _ => .operand
  | comparison _ => .comparison
  | value _ => .value
  | connective _ _ => .connective

namespace TreeReader

/-- The outline of a reader. -/
def outline (reader : TreeReader) : Outline :=
  ⟨reader.expected.awaited, reader.enclosing.length⟩

@[simp]
theorem outline_mk (expected : TreeExpected) (level : TreeLevel) (enclosing : List TreeLevel) :
    outline ⟨expected, level, enclosing⟩ = ⟨expected.awaited, enclosing.length⟩ :=
  rfl

@[simp]
theorem outline_afterOperand (level : TreeLevel) (enclosing : List TreeLevel)
    (operand : SyntaxTree) :
    (afterOperand level enclosing operand).outline = ⟨.connective, enclosing.length⟩ :=
  rfl

/-- A reader takes a lexeme exactly when its outline takes the tag. -/
theorem outline_step (reader : TreeReader) (lexeme : Lexeme) :
    (reader.step lexeme).toOption.map outline = reader.outline.step? lexeme.token.tag := by
  rcases reader with ⟨expected, level, enclosing⟩
  by_cases blank : lexeme.token.tag = .blank
  · cases expected <;> simp [step, blank, keepBlank, Outline.step?, Except.toOption]
  rw [step, if_neg blank]
  cases expected with
  | connective chain blanks =>
      cases tag_eq : lexeme.token.tag with
      | blank => exact absurd tag_eq blank
      | connective word =>
          cases word <;> simp [stepSignificant, tag_eq, Outline.step?, Except.toOption]
      | closeParen =>
          cases enclosing <;> simp [stepSignificant, tag_eq, Outline.step?, Except.toOption]
      | _ => simp [stepSignificant, tag_eq, Outline.step?, Except.toOption]
  | _ =>
      cases tag_eq : lexeme.token.tag with
      | blank => exact absurd tag_eq blank
      | _ => simp [stepSignificant, operand?, tag_eq, Outline.step?, Except.toOption]

/-- A reader takes lexemes exactly when its outline takes their tags. -/
theorem outline_run (reader : TreeReader) (found : List Lexeme) :
    (found.foldlM step reader).toOption.map outline =
      reader.outline.run? (found.map fun lexeme => lexeme.token.tag) := by
  induction found generalizing reader with
  | nil => rfl
  | cons lexeme found ih =>
      rw [List.map_cons, Outline.run?_cons, ← outline_step, List.foldlM_cons]
      cases taken : reader.step lexeme with
      | error error => rfl
      | ok next => exact ih next

theorem Reads.run?_outline {reader after : TreeReader} {found : List Lexeme}
    (reads : reader.Reads found after) :
    reader.outline.run? (found.map fun lexeme => lexeme.token.tag) = some after.outline := by
  rw [← outline_run, reads]
  rfl

/-- A reader finishes exactly at the end of an operand outside all groups. -/
theorem exists_finish_iff {reader : TreeReader} {mark : Token Tag} :
    (∃ tree, reader.finish mark = .ok tree) ↔ reader.outline = .done := by
  rcases reader with ⟨expected, level, enclosing⟩
  cases expected with
  | operand blanks =>
      simp only [finish, outline_mk, Outline.done, TreeExpected.awaited]
      cases level.pending? <;> simp
  | connective chain blanks => cases enclosing <;> simp [finish, Outline.done]
  | _ => simp [finish, Outline.done]

end TreeReader

/-- The tags of a query. -/
def tagsOf (query : String) : List Tag :=
  (lexemes query).map fun lexeme => lexeme.token.tag

/-- Whether a query is read as a tree depends on its tags alone. -/
theorem SyntaxTree.exists_read_iff {query : String} :
    (∃ tree, read query = .ok tree) ↔ Outline.start.run? (tagsOf query) = some .done := by
  constructor
  · rintro ⟨tree, found⟩
    rcases read_eq_ok_iff.1 found with ⟨reader, reads, finished⟩
    have done := TreeReader.exists_finish_iff.1 ⟨tree, finished⟩
    exact reads.run?_outline.trans (congrArg some done)
  · intro ran
    have run : ((lexemes query).foldlM TreeReader.step .start).toOption.map TreeReader.outline =
        Outline.start.run? (tagsOf query) := TreeReader.outline_run .start (lexemes query)
    rw [ran] at run
    cases reads : (lexemes query).foldlM TreeReader.step .start with
    | error error =>
        rw [reads] at run
        cases run
    | ok reader =>
        rw [reads] at run
        have done : reader.outline = .done := Option.some.inj run
        rcases (@TreeReader.exists_finish_iff _ (endMark query)).2 done with ⟨tree, finished⟩
        exact ⟨tree, read_eq_ok_iff.2 ⟨reader, reads, finished⟩⟩

end SearchQuery.Query
