import SearchQuery.Command.Check
import SearchQuery.Proofs.Grammar.Reader
import SearchQuery.Proofs.Tree.Erasure
import SearchQuery.Proofs.Tree.Leaves

/-!
# The two readers agree

A filter and a tree are read from the same query by two readers.  They go through the
same states, if blanks and parentheses are erased from the parts that the reader of
trees holds (`Matches`), and they take and refuse the same tokens with one exception:
a literal without a value ends the reading of a filter, and is borne in the tree as a
leaf that is not valid (`StepsAgree`).
-/

namespace SearchQuery.Query

open Text
open SyntaxTree (Erases meaningful)

namespace TreeReader

/-- The parts of a combination that waits for its right side stand for the left side
of a connective. -/
def Waits (connective : Connective) : Option Filter → List SyntaxTree → Prop
  | none, parts => parts = []
  | some left, parts =>
      ∃ tree word, meaningful parts = [tree, .leaf (.token .connective word)] ∧
        word.tag = .connective connective ∧ Erases tree left

/-- The levels of the two readers hold the same. -/
structure LevelMatches (level : TreeLevel) (plain : Level) : Prop where
  opening : meaningful level.opening = []
  alternative : Waits .or plain.alternative level.alternative
  conjunction : Waits .and plain.conjunction level.conjunction

/-- The two readers wait for the same and hold the same parts. -/
inductive Matches : TreeReader → Reader → Prop
  | operand {blanks : List SyntaxTree} {level : TreeLevel} {plain : Level}
      {enclosing : List TreeLevel} {plainEnclosing : List Level}
      (blank : meaningful blanks = []) (same : LevelMatches level plain)
      (around : List.Forall₂ LevelMatches enclosing plainEnclosing) :
      Matches ⟨.operand blanks, level, enclosing⟩ ⟨.operand, plain, plainEnclosing⟩
  | comparison {parts : List SyntaxTree} {name : Token Tag} {level : TreeLevel}
      {plain : Level} {enclosing : List TreeLevel} {plainEnclosing : List Level}
      (held : meaningful parts = [.leaf (.token .field name)])
      (same : LevelMatches level plain)
      (around : List.Forall₂ LevelMatches enclosing plainEnclosing) :
      Matches ⟨.comparison parts, level, enclosing⟩
        ⟨.comparison name.lexeme, plain, plainEnclosing⟩
  | value {parts : List SyntaxTree} {name sign : Token Tag} {comparison : Comparison}
      {level : TreeLevel} {plain : Level} {enclosing : List TreeLevel}
      {plainEnclosing : List Level}
      (held : meaningful parts =
        [.leaf (.token .field name), .leaf (.token .comparison sign)])
      (signTag : sign.tag = .comparison comparison) (same : LevelMatches level plain)
      (around : List.Forall₂ LevelMatches enclosing plainEnclosing) :
      Matches ⟨.value parts, level, enclosing⟩
        ⟨.value name.lexeme comparison, plain, plainEnclosing⟩
  | connective {chain : SyntaxTree} {filter : Filter} {blanks : List SyntaxTree}
      {level : TreeLevel} {alternative : Option Filter} {enclosing : List TreeLevel}
      {plainEnclosing : List Level} (erases : Erases chain filter)
      (blank : meaningful blanks = []) (opening : meaningful level.opening = [])
      (waits : Waits .or alternative level.alternative)
      (around : List.Forall₂ LevelMatches enclosing plainEnclosing) :
      Matches ⟨.connective chain blanks, level, enclosing⟩
        ⟨.connective filter, ⟨alternative, none⟩, plainEnclosing⟩

theorem levelMatches_empty : LevelMatches .empty .empty :=
  ⟨rfl, rfl, rfl⟩

theorem matches_start : Matches start Reader.start :=
  .operand rfl levelMatches_empty .nil

/-! ## Parts of the two states -/

/-- Whether the leaf of a token carries meaning depends on its tag. -/
theorem meaningful_ofToken {token : Token Tag} {tag : Tag} (tag_eq : token.tag = tag) :
    meaningful [.leaf (.ofToken token)] = meaningful [.leaf (.token (.ofTag tag) token)] := by
  subst tag_eq
  rfl

/-- Parts that wait stay as they are when blanks are added. -/
theorem Waits.append {connective : Connective} {left : Option Filter}
    {part : SyntaxTree} {parts blanks : List SyntaxTree}
    (waits : Waits connective left (part :: parts)) (blank : meaningful blanks = []) :
    Waits connective left (part :: parts ++ blanks) := by
  cases left with
  | none => cases waits
  | some left =>
      rcases waits with ⟨tree, word, parts_eq, wordTag, erases⟩
      refine ⟨tree, word, ?_, wordTag, erases⟩
      rw [SyntaxTree.meaningful_append, blank, List.append_nil, parts_eq]

/-- Blanks before an operand go where they carry no meaning. -/
theorem LevelMatches.settle {level : TreeLevel} {plain : Level} {blanks : List SyntaxTree}
    (same : LevelMatches level plain) (blank : meaningful blanks = []) :
    LevelMatches (level.settle blanks).1 plain ∧
      meaningful (level.settle blanks).2 = [] := by
  rcases level with ⟨opening, alternative, conjunction⟩
  unfold TreeLevel.settle
  cases conjunction with
  | cons part parts =>
      exact ⟨⟨same.opening, same.alternative, same.conjunction.append blank⟩, rfl⟩
  | nil =>
      cases alternative with
      | cons part parts =>
          exact ⟨⟨same.opening, same.alternative.append blank, same.conjunction⟩, rfl⟩
      | nil => exact ⟨same, blank⟩

/-- Joining a tree to the parts that wait joins the filters. -/
theorem Waits.join {connective : Connective} {left : Option Filter}
    {parts : List SyntaxTree} {last : SyntaxTree} {filter : Filter}
    (waits : Waits connective left parts) (erases : Erases last filter) :
    Erases (TreeLevel.join parts last) (Level.joinLeft connective left filter) := by
  cases left with
  | none =>
      rw [show parts = [] from waits]
      exact erases
  | some left =>
      rcases waits with ⟨tree, word, parts_eq, wordTag, erasesLeft⟩
      cases parts with
      | nil => cases parts_eq
      | cons part parts =>
          refine .combination ?_ wordTag erasesLeft erases
          rw [SyntaxTree.meaningful_append, parts_eq,
            SyntaxTree.meaningful_cons_of_not_isLayout erases.not_isLayout]
          rfl

/-- The states behind an operand match. -/
theorem matches_afterOperand {level : TreeLevel} {plain : Level}
    {enclosing : List TreeLevel} {plainEnclosing : List Level} {operand : SyntaxTree}
    {filter : Filter} (same : LevelMatches level plain)
    (around : List.Forall₂ LevelMatches enclosing plainEnclosing)
    (erases : Erases operand filter) :
    Matches (afterOperand level enclosing operand)
      (Reader.afterOperand plain plainEnclosing filter) :=
  .connective (same.conjunction.join erases) rfl same.opening same.alternative around

/-- What may follow an operand is the same for both readers. -/
theorem closingTag_eq {enclosing : List TreeLevel} {plainEnclosing : List Level}
    (around : List.Forall₂ LevelMatches enclosing plainEnclosing) :
    closingTag enclosing = Reader.closingTag plainEnclosing := by
  cases around <;> rfl

/-! ## One step -/

/-- How the two readers answer to one token: both take it, both refuse it for the same
reason, or it is a literal without a value that only the reader of trees bears. -/
inductive StepsAgree (token : Token Tag) :
    Except TreeError TreeReader → Except Error Reader → Prop
  | taken {after : TreeReader} {plainAfter : Reader} (same : Matches after plainAfter)
      (valid : (Leaf.ofRead token).isValid = true) :
      StepsAgree token (.ok after) (.ok plainAfter)
  | refused (error : Error) : StepsAgree token (.error ⟨error, token⟩) (.error error)
  | borne {after : TreeReader} (malformed : (Leaf.ofRead token).isValid = false) :
      StepsAgree token (.ok after) (.error (.invalidToken token))

/-- Readers in the same state answer alike to a token that is no fault. -/
theorem Matches.step {reader : TreeReader} {plain : Reader} {token : Token Tag}
    (same : Matches reader plain) (notError : token.tag ≠ .error)
    (notEof : token.tag ≠ .eof) :
    StepsAgree token (reader.stepSignificant ⟨token, none⟩) (plain.step token) := by
  cases same with
  | @operand blanks level plain enclosing plainEnclosing blank same around =>
      rcases same.settle blank with ⟨settled, rest⟩
      cases tag_eq : token.tag with
      | openParen =>
          simp only [stepSignificant, Reader.step, tag_eq]
          refine .taken (.operand rfl ⟨?_, rfl, rfl⟩ (.cons settled around)) ?_
          · rw [SyntaxTree.meaningful_append, rest, meaningful_ofToken tag_eq]
            rfl
          · simp [Leaf.isValid_ofRead, lacksValue, tag_eq]
      | field =>
          simp only [stepSignificant, Reader.step, tag_eq]
          refine .taken (.comparison ?_ settled around) ?_
          · rw [SyntaxTree.meaningful_append, rest, meaningful_ofToken tag_eq]
            rfl
          · simp [Leaf.isValid_ofRead, lacksValue, tag_eq]
      | error => exact absurd tag_eq notError
      | _ =>
          simp only [stepSignificant, Reader.step, tag_eq]
          exact .refused _
  | @comparison parts name level plain enclosing plainEnclosing held same around =>
      cases tag_eq : token.tag with
      | comparison sign =>
          simp only [stepSignificant, Reader.step, tag_eq]
          refine .taken (.value ?_ tag_eq same around) ?_
          · rw [SyntaxTree.meaningful_append, held, meaningful_ofToken tag_eq]
            rfl
          · simp [Leaf.isValid_ofRead, lacksValue, tag_eq]
      | error => exact absurd tag_eq notError
      | _ =>
          simp only [stepSignificant, Reader.step, tag_eq]
          exact .refused _
  | @value parts name sign comparison level plain enclosing plainEnclosing held signTag same
      around =>
      cases tag_eq : token.tag with
      | literal kind =>
          cases spells : Literal.read? kind token.lexeme with
          | some literal =>
              simp only [stepSignificant, operand?, Reader.step, Operand.ofToken, tag_eq,
                spells, Option.getD_some]
              refine .taken (matches_afterOperand same around (.condition ?_ signTag)) ?_
              · rw [SyntaxTree.meaningful_append, held]
                rfl
              · simp [Leaf.isValid_ofRead, lacksValue, tag_eq, spells]
          | none =>
              simp only [stepSignificant, operand?, Reader.step, Operand.ofToken, tag_eq,
                spells]
              exact .borne (by simp [Leaf.isValid_ofRead, lacksValue, tag_eq, spells])
      | error => exact absurd tag_eq notError
      | eof => exact absurd tag_eq notEof
      | _ =>
          simp only [stepSignificant, operand?, Reader.step, Operand.ofToken, tag_eq]
          exact .refused _
  | @connective chain filter blanks level alternative enclosing plainEnclosing erases blank
      opening waits around =>
      have behind : ∀ {tree : SyntaxTree} {joined : Filter} {word : Connective},
          Erases tree joined → token.tag = .connective word →
            Waits word (some joined) (tree :: blanks ++ [.leaf (.ofToken token)]) := by
        intro tree joined word erasesTree tag_eq
        refine ⟨tree, token, ?_, tag_eq, erasesTree⟩
        rw [SyntaxTree.meaningful_append, meaningful_ofToken tag_eq,
          SyntaxTree.meaningful_cons_of_not_isLayout erasesTree.not_isLayout, blank]
        rfl
      have whole := waits.join erases
      cases tag_eq : token.tag with
      | connective word =>
          have valid : (Leaf.ofRead token).isValid = true := by
            simp [Leaf.isValid_ofRead, lacksValue, tag_eq]
          cases word with
          | and =>
              simp only [stepSignificant, Reader.step, tag_eq]
              exact .taken (.operand rfl ⟨opening, waits, behind erases tag_eq⟩ around) valid
          | or =>
              simp only [stepSignificant, Reader.step, tag_eq]
              exact .taken (.operand rfl ⟨opening, behind whole tag_eq, rfl⟩ around) valid
      | closeParen =>
          cases around with
          | nil =>
              simp only [stepSignificant, Reader.step, tag_eq]
              exact .refused _
          | cons outer around =>
              simp only [stepSignificant, Reader.step, tag_eq]
              refine .taken (matches_afterOperand outer around (.group ?_ whole)) ?_
              · rw [SyntaxTree.meaningful_append, SyntaxTree.meaningful_append, opening,
                  SyntaxTree.meaningful_cons_of_not_isLayout whole.not_isLayout, blank,
                  meaningful_ofToken tag_eq]
                rfl
              · simp [Leaf.isValid_ofRead, lacksValue, tag_eq]
      | error => exact absurd tag_eq notError
      | _ =>
          simp only [stepSignificant, Reader.step, tag_eq, closingTag_eq around]
          exact .refused _

/-- A blank changes nothing for the reader of filters. -/
theorem Matches.keepBlank {reader : TreeReader} {plain : Reader} {token : Token Tag}
    (same : Matches reader plain) (blank : token.tag = .blank) :
    Matches
      { reader with
        expected := TreeReader.keepBlank reader.expected (.leaf (.ofToken token)) } plain := by
  have layout := meaningful_ofToken blank
  cases same with
  | operand rest same around =>
      exact .operand (by rw [SyntaxTree.meaningful_append, rest, layout]; rfl) same around
  | comparison held same around =>
      exact .comparison (by rw [SyntaxTree.meaningful_append, held, layout]; rfl) same around
  | value held signTag same around =>
      exact .value (by rw [SyntaxTree.meaningful_append, held, layout]; rfl) signTag same
        around
  | connective erases rest opening waits around =>
      exact .connective erases (by rw [SyntaxTree.meaningful_append, rest, layout]; rfl)
        opening waits around

/-- Parts wait exactly when a filter does. -/
theorem Waits.eq_nil_iff {connective : Connective} {left : Option Filter}
    {parts : List SyntaxTree} (waits : Waits connective left parts) :
    parts = [] ↔ left = none := by
  cases left with
  | none => exact iff_of_true waits rfl
  | some left =>
      rcases waits with ⟨tree, word, parts_eq, -⟩
      constructor
      · rintro rfl
        cases parts_eq
      · intro none
        cases none

/-- The same connective wants its right side. -/
theorem LevelMatches.pending?_eq {level : TreeLevel} {plain : Level}
    (same : LevelMatches level plain) : level.pending? = plain.pending? := by
  have and_iff := same.conjunction.eq_nil_iff
  have or_iff := same.alternative.eq_nil_iff
  unfold TreeLevel.pending? Level.pending?
  cases conjunction_eq : level.conjunction <;> cases plain_conjunction : plain.conjunction <;>
    simp only [conjunction_eq, plain_conjunction, reduceCtorEq, iff_true, iff_false,
      not_true_eq_false] at and_iff ⊢
  cases alternative_eq : level.alternative <;> cases plain_alternative : plain.alternative <;>
    simp only [alternative_eq, plain_alternative, reduceCtorEq, iff_true, iff_false,
      not_true_eq_false] at or_iff ⊢

/-- Readers in the same state finish alike. -/
theorem Matches.finish {reader : TreeReader} {plain : Reader} (same : Matches reader plain)
    (mark : Token Tag) :
    (∃ tree filter, reader.finish mark = .ok tree ∧
        plain.finish mark.span.start = .ok filter ∧ Erases tree filter) ∨
      ∃ error, reader.finish mark = .error ⟨error, mark⟩ ∧
        plain.finish mark.span.start = .error error := by
  cases same with
  | @operand blanks level plain enclosing plainEnclosing blank same around =>
      apply Or.inr
      simp only [TreeReader.finish, Reader.finish, same.pending?_eq]
      cases plain.pending? with
      | some connective => exact ⟨_, rfl, rfl⟩
      | none => exact ⟨_, rfl, rfl⟩
  | comparison => exact .inr ⟨_, rfl, rfl⟩
  | value => exact .inr ⟨_, rfl, rfl⟩
  | connective erases blank opening waits around =>
      cases around with
      | nil => exact .inl ⟨_, _, rfl, rfl, (waits.join erases).append blank⟩
      | cons outer around => exact .inr ⟨_, rfl, rfl⟩

/-! ## A whole run -/

/-- A lexeme that is a token: no fault, and not the mark at the end. -/
structure IsClean (lexeme : Lexeme) : Prop where
  faultless : lexeme.error = none
  notError : lexeme.token.tag ≠ .error
  notEof : lexeme.token.tag ≠ .eof

/-- Readers in the same state answer alike to a clean lexeme that is not blank. -/
theorem Matches.step_of_isClean {reader : TreeReader} {plain : Reader} {lexeme : Lexeme}
    (same : Matches reader plain) (clean : IsClean lexeme)
    (notBlank : lexeme.token.tag ≠ .blank) :
    StepsAgree lexeme.token (reader.step lexeme) (plain.step lexeme.token) := by
  rcases lexeme with ⟨token, error⟩
  obtain rfl : error = none := clean.faultless
  rw [TreeReader.step, if_neg notBlank]
  exact same.step clean.notError clean.notEof

/-- What the reader of filters takes, the reader of trees takes, with valid leaves. -/
theorem Matches.reads {reader : TreeReader} {plain plainAfter : Reader}
    {found : List Lexeme} (same : Matches reader plain)
    (clean : ∀ lexeme ∈ found, IsClean lexeme)
    (reads : plain.Reads (Filter.significant (found.map Lexeme.token)) plainAfter) :
    ∃ after, reader.Reads found after ∧ Matches after plainAfter ∧
      ∀ lexeme ∈ found, (Leaf.ofRead lexeme.token).isValid = true := by
  induction found generalizing reader plain with
  | nil =>
      obtain rfl := Reader.reads_nil_iff.1 reads
      exact ⟨reader, reads_nil_iff.2 rfl, same, fun _ mem => absurd mem List.not_mem_nil⟩
  | cons lexeme found ih =>
      have cleanRest : ∀ other ∈ found, IsClean other := by
        intro other mem
        exact clean other (List.mem_cons_of_mem _ mem)
      by_cases blank : lexeme.token.tag = .blank
      · rw [List.map_cons, Filter.significant_cons_of_blank blank] at reads
        rcases ih (same.keepBlank blank) cleanRest reads with ⟨after, rest, matched, valid⟩
        have validHere : (Leaf.ofRead lexeme.token).isValid = true := by
          simp [Leaf.isValid_ofRead, lacksValue, blank]
        exact ⟨after, reads_cons_iff.2 ⟨_, if_pos blank, rest⟩, matched,
          List.forall_mem_cons.2 ⟨validHere, valid⟩⟩
      · rw [List.map_cons, Filter.significant_cons_of_ne blank] at reads
        rcases Reader.reads_cons_iff.1 reads with ⟨plainMiddle, plainTaken, plainRest⟩
        have agree := same.step_of_isClean (clean lexeme List.mem_cons_self) blank
        rw [plainTaken] at agree
        generalize taken : reader.step lexeme = answer at agree
        cases agree with
        | taken middleSame validHere =>
            rcases ih middleSame cleanRest plainRest with ⟨after, rest, matched, valid⟩
            exact ⟨after, reads_cons_iff.2 ⟨_, taken, rest⟩, matched,
              List.forall_mem_cons.2 ⟨validHere, valid⟩⟩

/-- What the reader of trees takes with valid leaves, the reader of filters takes. -/
theorem Matches.plain_reads {reader after : TreeReader} {plain : Reader}
    {found : List Lexeme} (same : Matches reader plain)
    (clean : ∀ lexeme ∈ found, IsClean lexeme)
    (valid : ∀ lexeme ∈ found, (Leaf.ofRead lexeme.token).isValid = true)
    (reads : reader.Reads found after) :
    ∃ plainAfter,
      plain.Reads (Filter.significant (found.map Lexeme.token)) plainAfter ∧
        Matches after plainAfter := by
  induction found generalizing reader plain with
  | nil =>
      obtain rfl := reads_nil_iff.1 reads
      exact ⟨plain, Reader.reads_nil_iff.2 rfl, same⟩
  | cons lexeme found ih =>
      rcases reads_cons_iff.1 reads with ⟨middle, taken, rest⟩
      rcases List.forall_mem_cons.1 clean with ⟨cleanHere, cleanRest⟩
      rcases List.forall_mem_cons.1 valid with ⟨validHere, validRest⟩
      by_cases blank : lexeme.token.tag = .blank
      · rw [TreeReader.step, if_pos blank] at taken
        cases taken
        rw [List.map_cons, Filter.significant_cons_of_blank blank]
        exact ih (same.keepBlank blank) cleanRest validRest rest
      · have agree := same.step_of_isClean cleanHere blank
        rw [taken] at agree
        generalize plainTaken : plain.step lexeme.token = answer at agree
        cases agree with
        | taken middleSame _ =>
            rcases ih middleSame cleanRest validRest rest with ⟨plainAfter, plainRest, matched⟩
            refine ⟨plainAfter, ?_, matched⟩
            rw [List.map_cons, Filter.significant_cons_of_ne blank]
            exact .cons plainTaken plainRest
        | borne malformed =>
            rw [validHere] at malformed
            cases malformed

end TreeReader

/-! ## Whole queries -/

/-- The lexemes of a query without faults are clean. -/
theorem isClean_of_mem {query : String} (faultless : ∀ lexeme ∈ lexemes query, lexeme.error = none)
    {lexeme : Lexeme} (mem : lexeme ∈ lexemes query) : TreeReader.IsClean lexeme :=
  ⟨faultless lexeme mem, (error_eq_none_iff_of_mem mem).1 (faultless lexeme mem),
    tag_ne_eof_of_mem mem⟩

/-- A query that is read as a filter is read as a tree with valid leaves that stands for
the filter. -/
theorem exists_tree_of_read {query : String} {filter : Filter}
    (found : Filter.read query = .ok filter) :
    ∃ tree, SyntaxTree.read query = .ok tree ∧ Erases tree filter ∧
      ∀ leaf ∈ tree.leaves, leaf.isValid = true := by
  rcases Filter.read_eq_ok_iff.1 found with ⟨scanned, scans, run⟩
  rcases tokens_eq_ok_iff.1 scans with ⟨faultless, rfl⟩
  rcases Reader.run_eq_ok_iff_reads.1 run with ⟨plainReader, plainReads, plainFinished⟩
  obtain ⟨reader, reads, same, valid⟩ :=
    TreeReader.matches_start.reads (fun _ => isClean_of_mem faultless) plainReads
  rcases same.finish (endMark query) with ⟨tree, filter', finished, plainFinished', erases⟩ |
      ⟨error, -, plainFailed⟩
  · have same_filter : filter' = filter :=
      Except.ok.inj (plainFinished'.symm.trans plainFinished)
    subst same_filter
    have read_eq := SyntaxTree.read_eq_ok_iff.2 ⟨reader, reads, finished⟩
    refine ⟨tree, read_eq, erases, ?_⟩
    rw [SyntaxTree.leaves_of_read read_eq]
    intro leaf mem
    rcases List.mem_map.1 mem with ⟨lexeme, lexemeMem, rfl⟩
    exact valid lexeme lexemeMem
  · cases plainFailed.symm.trans plainFinished

/-- A query that is read as a tree with valid leaves is read as a filter. -/
theorem exists_filter_of_read {query : String} {tree : SyntaxTree}
    (found : SyntaxTree.read query = .ok tree)
    (valid : ∀ leaf ∈ tree.leaves, leaf.isValid = true) :
    ∃ filter, Filter.read query = .ok filter := by
  rcases SyntaxTree.read_eq_ok_iff.1 found with ⟨reader, reads, finished⟩
  have validRead : ∀ lexeme ∈ lexemes query, (Leaf.ofRead lexeme.token).isValid = true := by
    intro lexeme mem
    apply valid
    rw [SyntaxTree.leaves_of_read found]
    exact List.mem_map_of_mem mem
  have faultless : ∀ lexeme ∈ lexemes query, lexeme.error = none := by
    intro lexeme mem
    rw [error_eq_none_iff_of_mem mem]
    intro isError
    have validHere := validRead lexeme mem
    simp [Leaf.isValid_ofRead, isError] at validHere
  obtain ⟨plainReader, plainReads, same⟩ :=
    TreeReader.matches_start.plain_reads (fun _ => isClean_of_mem faultless) validRead reads
  rcases same.finish (endMark query) with ⟨-, filter, -, plainFinished, -⟩ | ⟨error, failed, -⟩
  · exact ⟨filter, Filter.read_eq_ok_iff.2 ⟨_, tokens_eq_ok_iff.2 ⟨faultless, rfl⟩,
      Reader.run_eq_ok_iff_reads.2 ⟨plainReader, plainReads, plainFinished⟩⟩⟩
  · cases failed.symm.trans finished

/-- The findings about a query call it valid exactly when it is read as a tree with valid
leaves. -/
theorem isValid_findings_iff (query : String) :
    (Command.Findings.ofQuery query).isValid = true ↔
      ∃ tree, SyntaxTree.read query = .ok tree ∧
        ∀ leaf ∈ tree.leaves, leaf.isValid = true := by
  cases found : SyntaxTree.read query with
  | ok tree =>
      simp [Command.Findings.ofQuery, Command.Findings.isValid, SyntaxTree.readLossy, found,
        SyntaxTree.malformed]
  | error error =>
      simp [Command.Findings.ofQuery, Command.Findings.isValid, SyntaxTree.readLossy, found]

/-- A query is read as a filter exactly when it is read as a tree with valid leaves, that
is, when the findings about it report it as valid; and then the tree, with blanks and
parentheses erased, is the filter, condition by condition. -/
theorem read_iff_read_tree (query : String) :
    ((∃ filter, Filter.read query = .ok filter) ↔
        ∃ tree, SyntaxTree.read query = .ok tree ∧
          ∀ leaf ∈ tree.leaves, leaf.isValid = true) ∧
      ((∃ filter, Filter.read query = .ok filter) ↔
        ∃ entries, (Command.Findings.ofQuery query).json =
          .object (("valid", .bool true) :: entries)) ∧
      ∀ filter tree, Filter.read query = .ok filter → SyntaxTree.read query = .ok tree →
        Erases tree filter ∧ (∀ other, Erases tree other → other = filter) ∧
          List.Forall₂ (fun part condition => Erases part (.leaf condition))
            tree.conditionNodes filter.conditions := by
  have agree : (∃ filter, Filter.read query = .ok filter) ↔
      ∃ tree, SyntaxTree.read query = .ok tree ∧
        ∀ leaf ∈ tree.leaves, leaf.isValid = true := by
    constructor
    · rintro ⟨filter, found⟩
      rcases exists_tree_of_read found with ⟨tree, read_eq, -, valid⟩
      exact ⟨tree, read_eq, valid⟩
    · rintro ⟨tree, found, valid⟩
      exact exists_filter_of_read found valid
  have reported : (∃ filter, Filter.read query = .ok filter) ↔
      ∃ entries, (Command.Findings.ofQuery query).json =
        .object (("valid", .bool true) :: entries) := by
    rw [agree, ← isValid_findings_iff]
    simp [Command.Findings.json]
  apply And.intro agree
  apply And.intro reported
  intro filter tree found foundTree
  rcases exists_tree_of_read found with ⟨tree', read_eq, erases, -⟩
  obtain rfl : tree' = tree := Except.ok.inj (read_eq.symm.trans foundTree)
  have unique : ∀ other, Erases tree' other → other = filter := by
    intro other erasesOther
    exact erasesOther.unique erases
  exact ⟨erases, unique, erases.conditionNodes⟩

/-- The parentheses of `(a=1)` are in the tree and leave no trace in the filter. -/
theorem erases_of_read_group :
    let value : Operand := ⟨.int 1, some ⟨.literal .int, "1", ⟨3, 4⟩⟩⟩
    let filter := Filter.leaf ⟨"a", .equal, value⟩
    let tree := SyntaxTree.node .group
      [.leaf (.ofToken ⟨.openParen, "(", ⟨0, 1⟩⟩),
        .node .condition
          [.leaf (.ofToken ⟨.field, "a", ⟨1, 2⟩⟩),
            .leaf (.ofToken ⟨.comparison .equal, "=", ⟨2, 3⟩⟩), .leaf (.value value)],
        .leaf (.ofToken ⟨.closeParen, ")", ⟨4, 5⟩⟩)]
    Filter.read "(a=1)" = .ok filter ∧ SyntaxTree.read "(a=1)" = .ok tree ∧
      Erases tree filter := by
  intro value filter tree
  have found : Filter.read "(a=1)" = .ok filter := by decide +kernel
  have foundTree : SyntaxTree.read "(a=1)" = .ok tree := by decide +kernel
  exact ⟨found, foundTree, ((read_iff_read_tree "(a=1)").2.2 filter tree found foundTree).1⟩

end SearchQuery.Query
