import SearchQuery.Proofs.Scan.Lexeme
import SearchQuery.Proofs.Text.Run
import SearchQuery.Query.TreeReader

/-!
# The leaves of a tree that is read

A reader of trees holds leaves in many places: before the groups that are open, in
the combinations that wait for a right side, and in the part that is being read.
In the order of the text they are exactly one leaf for every lexeme that was taken
(`Consistent.step`), so no step can lose, repeat or move one.  Which leaf a token
becomes depends on the token alone (`Leaf.ofRead`).
-/

namespace SearchQuery.Query

open Text

/-- Whether the token is a literal that has no value, such as an integer out of range. -/
def lacksValue (token : Token Tag) : Bool :=
  match token.tag with
  | .literal kind => (Literal.read? kind token.lexeme).isNone
  | _ => false

/-- A literal that is read is a value. -/
theorem Literal.isValid_of_read? {kind : LiteralKind} {text : String} {literal : Literal}
    (spells : Literal.read? kind text = some literal) : literal.isValid = true := by
  cases kind with
  | null | string | regexp =>
      cases spells
      rfl
  | bool | int | float =>
      rcases Option.map_eq_some_iff.1 spells with ⟨value, -, rfl⟩
      rfl

namespace Leaf

/-- The token that the leaf holds, or that its value was read from. -/
def source? : Leaf → Option (Token Tag)
  | token _ source => some source
  | value operand => operand.source

theorem span?_eq (leaf : Leaf) : leaf.span? = leaf.source?.map Token.span := by
  cases leaf <;> rfl

theorem text_of_source? {leaf : Leaf} {source : Token Tag}
    (held : leaf.source? = some source) : leaf.text = source.lexeme := by
  cases leaf with
  | token role own =>
      cases held
      rfl
  | value operand =>
      rcases operand with ⟨literal, own⟩
      cases held
      rfl

/-- The leaf that a token becomes in a tree that is read: a literal or a fault can
only stand for a value. -/
def ofRead (source : Token Tag) : Leaf :=
  match TreeReader.operand? source with
  | some operand => value operand
  | none => ofToken source

@[simp]
theorem source?_ofToken (source : Token Tag) : (ofToken source).source? = some source :=
  rfl

@[simp]
theorem source?_ofRead (source : Token Tag) : (ofRead source).source? = some source := by
  unfold ofRead TreeReader.operand?
  cases source.tag <;> rfl

theorem ofRead_eq_value {source : Token Tag} {operand : Operand}
    (spells : TreeReader.operand? source = some operand) : ofRead source = value operand := by
  rw [ofRead, spells]

/-- A token with a tag of no value keeps its own leaf. -/
theorem ofRead_of_tag_eq {source : Token Tag} {tag : Tag} (tag_eq : source.tag = tag)
    (noValue : TreeReader.operand? { source with tag } = none) :
    ofRead source = ofToken source := by
  subst tag_eq
  rw [ofRead, noValue]

/-- A leaf of a tree that is read is valid unless its token is a fault or a literal
without a value. -/
theorem isValid_ofRead (source : Token Tag) :
    (ofRead source).isValid = (source.tag != .error && !lacksValue source) := by
  unfold ofRead TreeReader.operand? lacksValue
  cases tag_eq : source.tag with
  | literal kind =>
      cases spells : Literal.read? kind source.lexeme with
      | none => simp [isValid, spells, Literal.isValid]
      | some literal => simp [isValid, spells, Literal.isValid_of_read? spells]
  | error => rfl
  | _ => simp [isValid, ofToken, tag_eq]

end Leaf

namespace SyntaxTree

/-- Whether the tree has parts. -/
def IsNode : SyntaxTree → Prop
  | leaf _ => False
  | node _ _ => True

theorem leaves_append {tree : SyntaxTree} (isNode : tree.IsNode) (parts : List SyntaxTree) :
    (tree.append parts).leaves = tree.leaves ++ leavesOf parts := by
  cases tree with
  | leaf part => exact isNode.elim
  | node role children => simp [SyntaxTree.append]

end SyntaxTree

namespace TreeLevel

open SyntaxTree

/-- The leaves that a level holds. -/
def leaves (level : TreeLevel) : List Leaf :=
  leavesOf level.opening ++ leavesOf level.alternative ++ leavesOf level.conjunction

@[simp]
theorem leaves_mk (opening alternative conjunction : List SyntaxTree) :
    leaves ⟨opening, alternative, conjunction⟩ =
      leavesOf opening ++ leavesOf alternative ++ leavesOf conjunction :=
  rfl

theorem isNode_join {parts : List SyntaxTree} {last : SyntaxTree} (isNode : last.IsNode) :
    (join parts last).IsNode := by
  cases parts with
  | nil => exact isNode
  | cons part parts => trivial

@[simp]
theorem leaves_join (parts : List SyntaxTree) (last : SyntaxTree) :
    (join parts last).leaves = leavesOf parts ++ last.leaves := by
  cases parts <;> simp [join]

@[simp]
theorem opening_settle (level : TreeLevel) (blanks : List SyntaxTree) :
    (level.settle blanks).1.opening = level.opening := by
  unfold settle
  split <;> rfl

/-- Blanks that are given to a combination stay behind its parts. -/
theorem leaves_settle (level : TreeLevel) (blanks : List SyntaxTree) :
    (level.settle blanks).1.leaves ++ leavesOf (level.settle blanks).2 =
      level.leaves ++ leavesOf blanks := by
  rcases level with ⟨opening, alternative, conjunction⟩
  unfold settle
  cases conjunction with
  | cons part parts => simp
  | nil => cases alternative <;> simp

end TreeLevel

namespace TreeExpected

open SyntaxTree

/-- The leaves of the part that is being read. -/
def leaves : TreeExpected → List Leaf
  | operand blanks => leavesOf blanks
  | comparison parts => leavesOf parts
  | value parts => leavesOf parts
  | connective chain blanks => chain.leaves ++ leavesOf blanks

end TreeExpected

namespace TreeReader

open SyntaxTree

/-- The leaves of levels, the outermost level first. -/
def leavesOfLevels : List TreeLevel → List Leaf
  | [] => []
  | level :: enclosing => leavesOfLevels enclosing ++ level.leaves

/-- All leaves that the reader holds, in the order of the text. -/
def leaves (reader : TreeReader) : List Leaf :=
  leavesOfLevels (reader.level :: reader.enclosing) ++ reader.expected.leaves

@[simp]
theorem leaves_mk (expected : TreeExpected) (level : TreeLevel)
    (enclosing : List TreeLevel) :
    leaves ⟨expected, level, enclosing⟩ =
      leavesOfLevels enclosing ++ level.leaves ++ expected.leaves :=
  rfl

/-- Outside all groups nothing stands before the first operand. -/
def IsGrounded : List TreeLevel → Prop
  | [] => True
  | [outermost] => outermost.opening = []
  | _ :: enclosing => IsGrounded enclosing

theorem IsGrounded.congr {level level' : TreeLevel} {enclosing : List TreeLevel}
    (grounded : IsGrounded (level :: enclosing)) (same : level'.opening = level.opening) :
    IsGrounded (level' :: enclosing) := by
  cases enclosing with
  | nil => exact same.trans grounded
  | cons outer enclosing => exact grounded

/-- A group rests on the levels around it. -/
theorem isGrounded_cons_cons_iff {inner level : TreeLevel} {enclosing : List TreeLevel} :
    IsGrounded (inner :: level :: enclosing) ↔ IsGrounded (level :: enclosing) :=
  Iff.rfl

/-- What makes sure that the parts which a step drops are empty: a chain that is
complete has taken over the parts that waited for it, and it can take the blanks
behind it. -/
structure Consistent (reader : TreeReader) : Prop where
  grounded : IsGrounded (reader.level :: reader.enclosing)
  settled : ∀ chain blanks, reader.expected = .connective chain blanks →
    chain.IsNode ∧ reader.level.conjunction = []

/-- Before a chain is complete nothing has to be settled. -/
theorem consistent_of_ne_connective {reader : TreeReader}
    (grounded : IsGrounded (reader.level :: reader.enclosing))
    (pending : ∀ chain blanks, reader.expected ≠ .connective chain blanks) :
    Consistent reader where
  grounded := grounded
  settled chain blanks complete := absurd complete (pending chain blanks)

theorem consistent_start : Consistent start :=
  consistent_of_ne_connective rfl (by simp [start])

/-- The reader behind an operand is consistent. -/
theorem consistent_afterOperand {level : TreeLevel} {enclosing : List TreeLevel}
    {operand : SyntaxTree} (grounded : IsGrounded (level :: enclosing))
    (isNode : operand.IsNode) : Consistent (afterOperand level enclosing operand) := by
  constructor
  · exact grounded.congr rfl
  · intro chain blanks found
    cases found
    exact ⟨TreeLevel.isNode_join isNode, rfl⟩

/-- An operand adds its leaves and no others. -/
theorem leaves_afterOperand (level : TreeLevel) (enclosing : List TreeLevel)
    (operand : SyntaxTree) :
    (afterOperand level enclosing operand).leaves =
      leavesOfLevels (level :: enclosing) ++ operand.leaves := by
  rcases level with ⟨opening, alternative, conjunction⟩
  simp [afterOperand, leavesOfLevels, TreeExpected.leaves]

/-- A blank becomes one leaf, at the end. -/
theorem Consistent.keepBlank {reader : TreeReader} (consistent : reader.Consistent)
    (blank : Leaf) :
    Consistent { reader with expected := keepBlank reader.expected (.leaf blank) } ∧
      leaves { reader with expected := TreeReader.keepBlank reader.expected (.leaf blank) } =
        reader.leaves ++ [blank] := by
  rcases reader with ⟨expected, level, enclosing⟩
  cases expected with
  | connective chain blanks =>
      rcases consistent.settled chain blanks rfl with ⟨isNode, settled⟩
      refine ⟨⟨consistent.grounded, ?_⟩, ?_⟩
      · intro chain' blanks' found
        cases found
        exact ⟨isNode, settled⟩
      · simp [TreeReader.keepBlank, TreeExpected.leaves]
  | _ =>
      constructor
      · exact consistent_of_ne_connective consistent.grounded (by simp [TreeReader.keepBlank])
      · simp [TreeReader.keepBlank, TreeExpected.leaves]

/-! ## One step -/

/-- What a step can do with a token that is not blank. -/
inductive Takes (token : Token Tag) : TreeReader → TreeReader → Prop
  | opening {blanks : List SyntaxTree} {level : TreeLevel} {enclosing : List TreeLevel}
      (tag : token.tag = .openParen) :
      Takes token ⟨.operand blanks, level, enclosing⟩
        ⟨.operand [], ⟨(level.settle blanks).2 ++ [.leaf (.ofToken token)], [], []⟩,
          (level.settle blanks).1 :: enclosing⟩
  | field {blanks : List SyntaxTree} {level : TreeLevel} {enclosing : List TreeLevel}
      (tag : token.tag = .field) :
      Takes token ⟨.operand blanks, level, enclosing⟩
        ⟨.comparison ((level.settle blanks).2 ++ [.leaf (.ofToken token)]),
          (level.settle blanks).1, enclosing⟩
  | comparison {parts : List SyntaxTree} {level : TreeLevel} {enclosing : List TreeLevel}
      {sign : Comparison} (tag : token.tag = .comparison sign) :
      Takes token ⟨.comparison parts, level, enclosing⟩
        ⟨.value (parts ++ [.leaf (.ofToken token)]), level, enclosing⟩
  | value {parts : List SyntaxTree} {level : TreeLevel} {enclosing : List TreeLevel}
      {operand : Operand} (spells : operand? token = some operand) :
      Takes token ⟨.value parts, level, enclosing⟩
        (afterOperand level enclosing
          (.node .condition (parts ++ [.leaf (.value operand)])))
  | and {chain : SyntaxTree} {blanks : List SyntaxTree} {level : TreeLevel}
      {enclosing : List TreeLevel} (tag : token.tag = .connective .and) :
      Takes token ⟨.connective chain blanks, level, enclosing⟩
        ⟨.operand [], ⟨level.opening, level.alternative,
          chain :: blanks ++ [.leaf (.ofToken token)]⟩, enclosing⟩
  | or {chain : SyntaxTree} {blanks : List SyntaxTree} {level : TreeLevel}
      {enclosing : List TreeLevel} (tag : token.tag = .connective .or) :
      Takes token ⟨.connective chain blanks, level, enclosing⟩
        ⟨.operand [], ⟨level.opening,
          TreeLevel.join level.alternative chain :: blanks ++ [.leaf (.ofToken token)], []⟩,
          enclosing⟩
  | closing {chain : SyntaxTree} {blanks : List SyntaxTree} {level outer : TreeLevel}
      {enclosing : List TreeLevel} (tag : token.tag = .closeParen) :
      Takes token ⟨.connective chain blanks, level, outer :: enclosing⟩
        (afterOperand outer enclosing
          (.node .group (level.opening ++
            TreeLevel.join level.alternative chain :: blanks ++ [.leaf (.ofToken token)])))

theorem takes_of_stepSignificant {reader after : TreeReader} {lexeme : Lexeme}
    (taken : reader.stepSignificant lexeme = .ok after) :
    Takes lexeme.token reader after := by
  rcases reader with ⟨expected, level, enclosing⟩
  cases expected with
  | operand blanks =>
      simp only [stepSignificant] at taken
      split at taken
      · next tag =>
          cases taken
          exact .opening tag
      · next tag =>
          cases taken
          exact .field tag
      · cases taken
  | comparison parts =>
      simp only [stepSignificant] at taken
      split at taken
      · next tag =>
          cases taken
          exact .comparison tag
      · cases taken
  | value parts =>
      simp only [stepSignificant] at taken
      split at taken
      · next operand spells =>
          cases taken
          exact .value spells
      · cases taken
  | connective chain blanks =>
      simp only [stepSignificant] at taken
      split at taken
      · next tag =>
          cases taken
          exact .and tag
      · next tag =>
          cases taken
          exact .or tag
      · next tag =>
          cases taken
          exact .closing tag
      · cases taken

/-- A token that is taken becomes one leaf, at the end. -/
theorem Consistent.takes {reader after : TreeReader} {token : Token Tag}
    (consistent : reader.Consistent) (takes : Takes token reader after) :
    after.Consistent ∧ after.leaves = reader.leaves ++ [Leaf.ofRead token] := by
  cases takes with
  | @opening blanks level enclosing tag =>
      have own := Leaf.ofRead_of_tag_eq tag rfl
      have grounded := consistent.grounded.congr (TreeLevel.opening_settle level blanks)
      constructor
      · exact consistent_of_ne_connective (isGrounded_cons_cons_iff.2 grounded) (by simp)
      · have settled := TreeLevel.leaves_settle level blanks
        simp only [TreeExpected.leaves, leaves_mk, leavesOfLevels, TreeLevel.leaves_mk,
          leavesOf_append, leavesOf_cons, leavesOf_nil, leaves_leaf, List.append_nil, own]
        rw [← List.append_assoc, List.append_assoc (leavesOfLevels enclosing), settled,
          ← List.append_assoc]
  | @field blanks level enclosing tag =>
      have own := Leaf.ofRead_of_tag_eq tag rfl
      have grounded := consistent.grounded.congr (TreeLevel.opening_settle level blanks)
      constructor
      · exact consistent_of_ne_connective grounded (by simp)
      · have settled := TreeLevel.leaves_settle level blanks
        simp only [TreeExpected.leaves, leaves_mk, leavesOf_append, leavesOf_cons,
          leavesOf_nil, leaves_leaf, List.append_nil, own]
        rw [← List.append_assoc, List.append_assoc (leavesOfLevels enclosing), settled,
          ← List.append_assoc]
  | @comparison parts level enclosing sign tag =>
      have own := Leaf.ofRead_of_tag_eq tag rfl
      constructor
      · exact consistent_of_ne_connective consistent.grounded (by simp)
      · simp [TreeExpected.leaves, own]
  | @value parts level enclosing operand spells =>
      constructor
      · exact consistent_afterOperand consistent.grounded trivial
      · simp [leaves_afterOperand, leavesOfLevels, TreeExpected.leaves,
          Leaf.ofRead_eq_value spells]
  | @and chain blanks level enclosing tag =>
      have own := Leaf.ofRead_of_tag_eq tag rfl
      rcases level with ⟨opening, alternative, conjunction⟩
      rcases consistent.settled chain blanks rfl with ⟨isNode, rfl⟩
      constructor
      · exact consistent_of_ne_connective (consistent.grounded.congr rfl) (by simp)
      · simp [TreeExpected.leaves, own]
  | @or chain blanks level enclosing tag =>
      have own := Leaf.ofRead_of_tag_eq tag rfl
      rcases level with ⟨opening, alternative, conjunction⟩
      rcases consistent.settled chain blanks rfl with ⟨isNode, rfl⟩
      constructor
      · exact consistent_of_ne_connective (consistent.grounded.congr rfl) (by simp)
      · simp [TreeExpected.leaves, own]
  | @closing chain blanks level outer enclosing tag =>
      have own := Leaf.ofRead_of_tag_eq tag rfl
      rcases level with ⟨opening, alternative, conjunction⟩
      rcases consistent.settled chain blanks rfl with ⟨isNode, rfl⟩
      have grounded := isGrounded_cons_cons_iff.1 consistent.grounded
      constructor
      · exact consistent_afterOperand grounded trivial
      · simp [leaves_afterOperand, leavesOfLevels, TreeExpected.leaves, own]

/-- Each step adds exactly the leaf of its token. -/
theorem Consistent.step {reader after : TreeReader} {lexeme : Lexeme}
    (consistent : reader.Consistent) (taken : reader.step lexeme = .ok after) :
    after.Consistent ∧ after.leaves = reader.leaves ++ [Leaf.ofRead lexeme.token] := by
  unfold TreeReader.step at taken
  split at taken
  · next blank =>
      cases taken
      rw [Leaf.ofRead_of_tag_eq blank rfl]
      exact consistent.keepBlank (.ofToken lexeme.token)
  · exact consistent.takes (takes_of_stepSignificant taken)

/-! ## A whole run -/

/-- Taking the lexemes one after the other leads from the first reader to the
second. -/
def Reads (reader : TreeReader) (found : List Lexeme) (after : TreeReader) : Prop :=
  found.foldlM TreeReader.step reader = .ok after

@[simp]
theorem reads_nil_iff {reader after : TreeReader} :
    reader.Reads [] after ↔ reader = after := by
  simp [Reads, pure, Except.pure]

theorem reads_cons_iff {reader after : TreeReader} {lexeme : Lexeme}
    {found : List Lexeme} :
    reader.Reads (lexeme :: found) after ↔
      ∃ middle, reader.step lexeme = .ok middle ∧ middle.Reads found after :=
  foldlM_cons_eq_ok_iff

/-- A run adds the leaves of all its lexemes, in their order. -/
theorem Consistent.reads {reader after : TreeReader} {found : List Lexeme}
    (consistent : reader.Consistent) (reads : reader.Reads found after) :
    after.Consistent ∧
      after.leaves = reader.leaves ++ found.map fun lexeme => Leaf.ofRead lexeme.token := by
  induction found generalizing reader with
  | nil =>
      rw [reads_nil_iff] at reads
      subst reads
      exact ⟨consistent, (List.append_nil _).symm⟩
  | cons lexeme found ih =>
      rcases reads_cons_iff.1 reads with ⟨middle, taken, rest⟩
      rcases consistent.step taken with ⟨middleConsistent, middleLeaves⟩
      rcases ih middleConsistent rest with ⟨afterConsistent, afterLeaves⟩
      constructor
      · exact afterConsistent
      · rw [afterLeaves, middleLeaves, List.map_cons, List.append_assoc, List.singleton_append]

/-- The tree at the end has all leaves of the reader. -/
theorem Consistent.leaves_finish {reader : TreeReader} {mark : Token Tag}
    {tree : SyntaxTree} (consistent : reader.Consistent)
    (finished : reader.finish mark = .ok tree) : tree.leaves = reader.leaves := by
  rcases reader with ⟨expected, level, enclosing⟩
  cases expected with
  | operand blanks =>
      simp only [finish] at finished
      split at finished <;> cases finished
  | comparison parts => cases finished
  | value parts => cases finished
  | connective chain blanks =>
      cases enclosing with
      | cons outer enclosing => cases finished
      | nil =>
          cases finished
          rcases level with ⟨opening, alternative, conjunction⟩
          rcases consistent.settled chain blanks rfl with ⟨isNode, rfl⟩
          obtain rfl : opening = [] := consistent.grounded
          simp [leaves_append (TreeLevel.isNode_join isNode), leavesOfLevels,
            TreeExpected.leaves]

end TreeReader

namespace SyntaxTree

/-- A query is read as a tree when the reader comes to the end and finishes there. -/
theorem read_eq_ok_iff {query : String} {tree : SyntaxTree} :
    read query = .ok tree ↔
      ∃ reader, TreeReader.start.Reads (lexemes query) reader ∧
        reader.finish (endMark query) = .ok tree := by
  simp only [read, TreeReader.Reads, bind, Except.bind]
  cases (lexemes query).foldlM TreeReader.step TreeReader.start <;> simp

/-- A tree that is read has one leaf for every lexeme. -/
theorem leaves_of_read {query : String} {tree : SyntaxTree} (found : read query = .ok tree) :
    tree.leaves = (lexemes query).map fun lexeme => Leaf.ofRead lexeme.token := by
  rcases read_eq_ok_iff.1 found with ⟨reader, reads, finished⟩
  rcases TreeReader.consistent_start.reads reads with ⟨consistent, leaves_eq⟩
  rw [consistent.leaves_finish finished, leaves_eq]
  rfl

/-- The flat tree has one leaf for every lexeme. -/
theorem leaves_flat (query : String) :
    (flat query).leaves = (lexemes query).map fun lexeme => Leaf.ofToken lexeme.token := by
  rw [flat, leaves_node]
  induction lexemes query with
  | nil => rfl
  | cons lexeme rest ih => simp [ih]

end SyntaxTree

end SearchQuery.Query
