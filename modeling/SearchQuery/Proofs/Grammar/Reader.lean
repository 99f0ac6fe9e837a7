import Mathlib.Data.List.Basic
import SearchQuery.Proofs.Grammar.Basic
import SearchQuery.Proofs.Text.Run
import SearchQuery.Query.Reader

/-!
# Reading follows the grammar

The reader takes one token at a time and keeps no phrase of the grammar.  This
file connects the two.  A phrase of every stratum takes the reader from the state
in which the phrase may begin to the state behind it (`Derives.takes`); and every
state that the reader can reach describes a cut of the tokens before it into
phrases and pending connectives (`Covers`), which each step keeps.  Together they
say that a list of tokens is read as a filter exactly when the grammar derives the
filter (`run_eq_ok_iff`).
-/

namespace SearchQuery.Query

open Text

/-- An operand is read from a token of a literal whose text spells a literal of its kind. -/
theorem Operand.ofToken_eq_ok_iff {token : Token Tag} {operand : Operand} :
    ofToken token = .ok operand ↔ ∃ kind literal, token.tag = .literal kind ∧
      Literal.read? kind token.lexeme = some literal ∧ operand = ⟨literal, some token⟩ := by
  unfold ofToken
  split
  · next kind tag =>
      cases reads : Literal.read? kind token.lexeme <;> simp [tag, reads, eq_comm]
  · next tag => simp [tag]
  · next noLiteral _ =>
      constructor
      · intro none
        cases none
      · rintro ⟨kind, -, tag, -⟩
        exact absurd tag (noLiteral kind)

namespace Reader

/-- Taking the tokens one after the other leads from the first reader to the
second. -/
def Reads (reader : Reader) (tokens : List (Token Tag)) (after : Reader) : Prop :=
  tokens.foldlM step reader = .ok after

@[simp]
theorem reads_nil_iff {reader after : Reader} : reader.Reads [] after ↔ reader = after := by
  simp [Reads, pure, Except.pure]

theorem reads_cons_iff {reader after : Reader} {token : Token Tag}
    {tokens : List (Token Tag)} :
    reader.Reads (token :: tokens) after ↔
      ∃ middle, reader.step token = .ok middle ∧ middle.Reads tokens after :=
  foldlM_cons_eq_ok_iff

theorem reads_append_iff {reader after : Reader} {first second : List (Token Tag)} :
    reader.Reads (first ++ second) after ↔
      ∃ middle, reader.Reads first middle ∧ middle.Reads second after :=
  foldlM_append_eq_ok_iff

theorem Reads.append {reader middle after : Reader} {first second : List (Token Tag)}
    (start : reader.Reads first middle) (rest : middle.Reads second after) :
    reader.Reads (first ++ second) after :=
  reads_append_iff.2 ⟨middle, start, rest⟩

theorem Reads.cons {reader middle after : Reader} {token : Token Tag}
    {tokens : List (Token Tag)} (step : reader.step token = .ok middle)
    (rest : middle.Reads tokens after) : reader.Reads (token :: tokens) after :=
  reads_cons_iff.2 ⟨middle, step, rest⟩

/-! ## Every phrase is taken -/

/-- How the reader takes a phrase of a stratum, whatever stands before it.  Behind a
chain of `or` the reader still holds the last chain of `and` apart. -/
def Takes : Stratum → List (Token Tag) → Filter → Prop
  | .operand, tokens, filter =>
      ∀ level enclosing,
        Reads ⟨.operand, level, enclosing⟩ tokens (afterOperand level enclosing filter)
  | .chain .and, tokens, filter =>
      ∀ alternative enclosing,
        Reads ⟨.operand, ⟨alternative, none⟩, enclosing⟩ tokens
          ⟨.connective filter, ⟨alternative, none⟩, enclosing⟩
  | .chain .or, tokens, filter =>
      ∀ enclosing, ∃ alternative chain,
        Level.joinLeft .or alternative chain = filter ∧
          Reads ⟨.operand, .empty, enclosing⟩ tokens
            ⟨.connective chain, ⟨alternative, none⟩, enclosing⟩

/-- The links of a chain of `and` are taken one by one. -/
theorem reads_and_links {links : List Link}
    (words : ∀ link ∈ links, link.word.tag = .connective .and)
    (phrases : ∀ link ∈ links, Takes .operand link.phrase link.filter)
    (alternative : Option Filter) (enclosing : List Level) (chain : Filter) :
    Reads ⟨.connective chain, ⟨alternative, none⟩, enclosing⟩ (links.flatMap Link.tokens)
      ⟨.connective (links.foldl (Link.attach .and) chain), ⟨alternative, none⟩,
        enclosing⟩ := by
  induction links generalizing chain with
  | nil => simp
  | cons link links ih =>
      rcases List.forall_mem_cons.1 words with ⟨word, otherWords⟩
      rcases List.forall_mem_cons.1 phrases with ⟨takes, otherPhrases⟩
      have phrase := takes ⟨alternative, some chain⟩ enclosing
      have rest := ih otherWords otherPhrases (Link.attach .and chain link)
      rw [List.flatMap_cons, List.foldl_cons, Link.tokens, List.cons_append]
      exact Reads.cons (by simp [step, word]) (phrase.append rest)

/-- The links of a chain of `or` are taken one by one. -/
theorem reads_or_links {links : List Link}
    (words : ∀ link ∈ links, link.word.tag = .connective .or)
    (phrases : ∀ link ∈ links, Takes (.chain .and) link.phrase link.filter)
    (enclosing : List Level) (alternative : Option Filter) (chain : Filter) :
    ∃ alternative' chain',
      Level.joinLeft .or alternative' chain' =
          links.foldl (Link.attach .or) (Level.joinLeft .or alternative chain) ∧
        Reads ⟨.connective chain, ⟨alternative, none⟩, enclosing⟩
          (links.flatMap Link.tokens)
          ⟨.connective chain', ⟨alternative', none⟩, enclosing⟩ := by
  induction links generalizing alternative chain with
  | nil => exact ⟨alternative, chain, rfl, by simp⟩
  | cons link links ih =>
      rcases List.forall_mem_cons.1 words with ⟨word, otherWords⟩
      rcases List.forall_mem_cons.1 phrases with ⟨takes, otherPhrases⟩
      have phrase := takes (some (Level.joinLeft .or alternative chain)) enclosing
      rcases ih otherWords otherPhrases (some (Level.joinLeft .or alternative chain))
        link.filter with ⟨alternative', chain', joined, rest⟩
      refine ⟨alternative', chain', joined, ?_⟩
      rw [List.flatMap_cons, Link.tokens, List.cons_append]
      exact Reads.cons (by simp [step, word]) (phrase.append rest)

end Reader

/-- The reader takes every phrase of the grammar and comes to its filter. -/
theorem Derives.takes {stratum : Stratum} {tokens : List (Token Tag)} {filter : Filter}
    (derives : Derives stratum tokens filter) : Reader.Takes stratum tokens filter := by
  induction derives with
  | @condition field sign value comparison kind literal fieldTag signTag valueTag spells =>
      intro level enclosing
      have fieldStep : Reader.step ⟨.operand, level, enclosing⟩ field =
          .ok ⟨.comparison field.lexeme, level, enclosing⟩ := by
        simp [Reader.step, fieldTag]
      have signStep : Reader.step ⟨.comparison field.lexeme, level, enclosing⟩ sign =
          .ok ⟨.value field.lexeme comparison, level, enclosing⟩ := by
        simp [Reader.step, signTag]
      have valueStep : Reader.step ⟨.value field.lexeme comparison, level, enclosing⟩ value =
          .ok (Reader.afterOperand level enclosing
            (.leaf ⟨field.lexeme, comparison, ⟨literal, some value⟩⟩)) := by
        simp [Reader.step, Operand.ofToken_eq_ok_iff.2 ⟨kind, literal, valueTag, spells, rfl⟩]
      apply Reader.Reads.cons fieldStep
      apply Reader.Reads.cons signStep
      apply Reader.Reads.cons valueStep
      exact Reader.reads_nil_iff.2 rfl
  | @group opening closing tokens filter openingTag closingTag inner ih =>
      intro level enclosing
      rcases ih (level :: enclosing) with ⟨alternative, chain, joined, reads⟩
      have openingStep : Reader.step ⟨.operand, level, enclosing⟩ opening =
          .ok ⟨.operand, .empty, level :: enclosing⟩ := by
        simp [Reader.step, openingTag]
      have closingStep :
          Reader.step ⟨.connective chain, ⟨alternative, none⟩, level :: enclosing⟩ closing =
            .ok (Reader.afterOperand level enclosing filter) := by
        simp [Reader.step, closingTag, joined]
      apply Reader.Reads.cons openingStep
      apply reads.append
      apply Reader.Reads.cons closingStep
      exact Reader.reads_nil_iff.2 rfl
  | @chain connective tokens filter links first words phrases takesFirst takesPhrases =>
      cases connective with
      | and =>
          intro alternative enclosing
          exact (takesFirst ⟨alternative, none⟩ enclosing).append
            (Reader.reads_and_links words takesPhrases alternative enclosing filter)
      | or =>
          intro enclosing
          obtain ⟨alternative, chain, joined, reads⟩ :=
            Reader.reads_or_links words takesPhrases enclosing none filter
          exact ⟨alternative, chain, joined, (takesFirst none enclosing).append reads⟩

namespace Reader

/-! ## Every state is a cut into phrases -/

/-- The tokens of a chain that waits for its next phrase, the connective included;
no tokens if no chain waits. -/
def Pending (connective : Connective) : Option Filter → List (Token Tag) → Prop
  | none, tokens => tokens = []
  | some left, tokens =>
      ∃ phrase word, Derives (.chain connective) phrase left ∧
        word.tag = .connective connective ∧ tokens = phrase ++ [word]

/-- A pending chain takes its next phrase. -/
theorem Pending.derives {connective : Connective} {left : Option Filter}
    {before phrase : List (Token Tag)} {filter : Filter}
    (pending : Pending connective left before)
    (part : Derives connective.part phrase filter) :
    Derives (.chain connective) (before ++ phrase)
      (Level.joinLeft connective left filter) := by
  cases left with
  | none =>
      rw [show before = [] from pending]
      exact part.single
  | some left =>
      rcases pending with ⟨chained, word, derives, wordTag, rfl⟩
      simpa [Level.joinLeft] using derives.snoc wordTag part

/-- The tokens of one group before its next operand. -/
def LevelCovers (level : Level) (tokens : List (Token Tag)) : Prop :=
  ∃ first second, Pending .or level.alternative first ∧
    Pending .and level.conjunction second ∧ tokens = first ++ second

theorem levelCovers_empty : LevelCovers .empty [] :=
  ⟨[], [], rfl, rfl, rfl⟩

/-- The tokens before the innermost group, up to the parenthesis that opens it. -/
inductive Opened : List Level → List (Token Tag) → Prop
  | outermost : Opened [] []
  | group {level : Level} {enclosing : List Level} {outer before : List (Token Tag)}
      {opening : Token Tag} (opened : Opened enclosing outer)
      (covered : LevelCovers level before) (openingTag : opening.tag = .openParen) :
      Opened (level :: enclosing) (outer ++ before ++ [opening])

/-- The tokens that have led to a reader, cut at the phrases that it holds. -/
inductive Covers : Reader → List (Token Tag) → Prop
  | operand {level : Level} {enclosing : List Level} {outer before : List (Token Tag)}
      (opened : Opened enclosing outer) (covered : LevelCovers level before) :
      Covers ⟨.operand, level, enclosing⟩ (outer ++ before)
  | comparison {level : Level} {enclosing : List Level} {outer before : List (Token Tag)}
      {name : Token Tag} (opened : Opened enclosing outer)
      (covered : LevelCovers level before) (nameTag : name.tag = .field) :
      Covers ⟨.comparison name.lexeme, level, enclosing⟩ (outer ++ before ++ [name])
  | value {level : Level} {enclosing : List Level} {outer before : List (Token Tag)}
      {name sign : Token Tag} {comparison : Comparison} (opened : Opened enclosing outer)
      (covered : LevelCovers level before) (nameTag : name.tag = .field)
      (signTag : sign.tag = .comparison comparison) :
      Covers ⟨.value name.lexeme comparison, level, enclosing⟩
        (outer ++ before ++ [name, sign])
  | connective {alternative : Option Filter} {enclosing : List Level}
      {outer before phrase : List (Token Tag)} {chain : Filter}
      (opened : Opened enclosing outer) (pending : Pending .or alternative before)
      (derives : Derives (.chain .and) phrase chain) :
      Covers ⟨.connective chain, ⟨alternative, none⟩, enclosing⟩ (outer ++ before ++ phrase)

/-- Before the first token there is nothing to cover. -/
theorem covers_start : Covers start [] :=
  .operand .outermost levelCovers_empty

/-- A whole operand goes to the pending chain of `and`, or begins one. -/
theorem covers_afterOperand {level : Level} {enclosing : List Level}
    {outer before phrase : List (Token Tag)} {filter : Filter}
    (opened : Opened enclosing outer) (covered : LevelCovers level before)
    (derives : Derives .operand phrase filter) :
    Covers (afterOperand level enclosing filter) (outer ++ before ++ phrase) := by
  rcases covered with ⟨first, second, pendingOr, pendingAnd, rfl⟩
  have chain := pendingAnd.derives derives
  simpa [afterOperand] using Covers.connective opened pendingOr chain

/-- Each step keeps the cut. -/
theorem Covers.step {reader after : Reader} {tokens : List (Token Tag)} {token : Token Tag}
    (covers : Covers reader tokens) (taken : reader.step token = .ok after) :
    Covers after (tokens ++ [token]) := by
  cases covers with
  | @operand level enclosing outer before opened covered =>
      simp only [Reader.step] at taken
      split at taken
      · next openingTag =>
          cases taken
          simpa using Covers.operand (opened.group covered openingTag) levelCovers_empty
      · next nameTag =>
          cases taken
          exact .comparison opened covered nameTag
      · cases taken
  | @comparison level enclosing outer before name opened covered nameTag =>
      simp only [Reader.step] at taken
      split at taken
      · next comparison signTag =>
          cases taken
          simpa using Covers.value opened covered nameTag signTag
      · cases taken
  | @value level enclosing outer before name sign comparison opened covered nameTag signTag =>
      simp only [Reader.step] at taken
      split at taken
      · next operand read =>
          rcases Operand.ofToken_eq_ok_iff.1 read with ⟨kind, literal, valueTag, spells, rfl⟩
          cases taken
          have condition := Derives.condition nameTag signTag valueTag spells
          simpa using covers_afterOperand opened covered condition
      · cases taken
  | @connective alternative enclosing outer before phrase chain opened pending derives =>
      simp only [Reader.step] at taken
      split at taken
      · next wordTag =>
          cases taken
          have covered : LevelCovers ⟨alternative, some chain⟩ (before ++ (phrase ++ [token])) :=
            ⟨before, phrase ++ [token], pending, ⟨phrase, token, derives, wordTag, rfl⟩, rfl⟩
          simpa using Covers.operand opened covered
      · next wordTag =>
          cases taken
          have whole := pending.derives derives
          have covered : LevelCovers ⟨some (Level.joinLeft .or alternative chain), none⟩
              (before ++ phrase ++ [token]) :=
            ⟨before ++ phrase ++ [token], [], ⟨before ++ phrase, token, whole, wordTag, rfl⟩,
              rfl, by simp⟩
          simpa using Covers.operand opened covered
      · next outerLevel enclosing closingTag =>
          cases taken
          cases opened with
          | @group _ _ outer before' opening opened covered openingTag =>
              have whole := pending.derives derives
              have group := Derives.group openingTag closingTag whole
              simpa using covers_afterOperand opened covered group
      · cases taken

/-- All tokens that were taken are covered. -/
theorem Covers.reads {reader after : Reader} {before tokens : List (Token Tag)}
    (covers : Covers reader before) (reads : reader.Reads tokens after) :
    Covers after (before ++ tokens) := by
  induction tokens generalizing reader before with
  | nil =>
      rw [reads_nil_iff] at reads
      subst reads
      rwa [List.append_nil]
  | cons token tokens ih =>
      rcases reads_cons_iff.1 reads with ⟨middle, taken, rest⟩
      have covered := ih (covers.step taken) rest
      rwa [List.append_assoc, List.singleton_append] at covered

/-- At the end of a query that is read, the tokens are one chain of `or`. -/
theorem Covers.finish {reader : Reader} {tokens : List (Token Tag)} {position : Nat}
    {filter : Filter} (covers : Covers reader tokens)
    (finished : reader.finish position = .ok filter) :
    Derives (.chain .or) tokens filter := by
  cases covers with
  | @operand level enclosing outer before opened covered =>
      simp only [Reader.finish] at finished
      split at finished <;> cases finished
  | comparison => cases finished
  | value => cases finished
  | @connective alternative enclosing outer before phrase chain opened pending derives =>
      cases opened with
      | outermost =>
          cases finished
          exact pending.derives derives
      | group => cases finished

theorem run_eq_ok_iff_reads {tokens : List (Token Tag)} {position : Nat}
    {filter : Filter} :
    run tokens position = .ok filter ↔
      ∃ reader, start.Reads tokens reader ∧ reader.finish position = .ok filter := by
  simp only [run, Reads, bind, Except.bind]
  cases tokens.foldlM Reader.step start <;> simp

/-- Tokens are read as a filter exactly when the grammar derives the filter. -/
theorem run_eq_ok_iff {tokens : List (Token Tag)} {position : Nat} {filter : Filter} :
    run tokens position = .ok filter ↔ Derives (.chain .or) tokens filter := by
  rw [run_eq_ok_iff_reads]
  constructor
  · rintro ⟨reader, reads, finished⟩
    exact (covers_start.reads reads).finish finished
  · intro derives
    rcases derives.takes [] with ⟨alternative, chain, joined, reads⟩
    exact ⟨_, reads, by simp [finish, joined]⟩

end Reader

/-- The tokens of a phrase determine its filter. -/
theorem Derives.unique {tokens : List (Token Tag)} {first second : Filter}
    (derives : Derives (.chain .or) tokens first)
    (other : Derives (.chain .or) tokens second) : first = second := by
  have firstRun := (@Reader.run_eq_ok_iff tokens 0 first).2 derives
  have secondRun := (@Reader.run_eq_ok_iff tokens 0 second).2 other
  exact Except.ok.inj (firstRun.symm.trans secondRun)

/-- No phrase is empty. -/
theorem Derives.ne_nil {stratum : Stratum} {tokens : List (Token Tag)} {filter : Filter}
    (derives : Derives stratum tokens filter) : tokens ≠ [] := by
  induction derives with
  | condition => simp
  | group => simp
  | chain first words phrases nonempty => simp [nonempty]

namespace Filter

theorem significant_cons_of_blank {token : Token Tag} (blank : token.tag = .blank)
    (rest : List (Token Tag)) : significant (token :: rest) = significant rest :=
  List.filter_cons_of_neg (by simp [blank])

theorem significant_cons_of_ne {token : Token Tag} (notBlank : token.tag ≠ .blank)
    (rest : List (Token Tag)) : significant (token :: rest) = token :: significant rest :=
  List.filter_cons_of_pos (by simp [notBlank])

/-- A filter is read from a query without faults of the scan when the reader comes to
the end of the significant tokens and finishes there. -/
theorem read_eq_ok_iff {query : String} {filter : Filter} :
    read query = .ok filter ↔
      ∃ scanned, tokens query = .ok scanned ∧
        Reader.run (significant scanned) (width query.toList) = .ok filter := by
  simp only [read, bind, Except.bind]
  cases scans : tokens query with
  | error error => simp
  | ok scanned =>
      cases empty : significant scanned with
      | nil =>
          have nothing : ¬ Derives (.chain .or) [] filter := by
            intro derives
            exact derives.ne_nil rfl
          simp [Reader.run_eq_ok_iff, empty, nothing, throw, throwThe, MonadExceptOf.throw]
      | cons token rest => simp [empty]

/-- A query without faults of the scan is read as a filter exactly when its tokens,
blanks left out, are a phrase of the grammar that stands for the filter. -/
theorem read_eq_ok_iff_derives {query : String} {scanned : List (Token Tag)}
    (scans : tokens query = .ok scanned) (filter : Filter) :
    read query = .ok filter ↔ Derives (.chain .or) (significant scanned) filter := by
  rw [read_eq_ok_iff, ← @Reader.run_eq_ok_iff _ (width query.toList), scans]
  simp

/-- The parentheses of `(a=1 or b=2) and c=3` keep the chain of `or` together. -/
theorem derives_group_of_read :
    let scanned : List (Token Tag) :=
      [⟨.openParen, "(", ⟨0, 1⟩⟩, ⟨.field, "a", ⟨1, 2⟩⟩, ⟨.comparison .equal, "=", ⟨2, 3⟩⟩,
        ⟨.literal .int, "1", ⟨3, 4⟩⟩, ⟨.blank, " ", ⟨4, 5⟩⟩, ⟨.connective .or, "or", ⟨5, 7⟩⟩,
        ⟨.blank, " ", ⟨7, 8⟩⟩, ⟨.field, "b", ⟨8, 9⟩⟩, ⟨.comparison .equal, "=", ⟨9, 10⟩⟩,
        ⟨.literal .int, "2", ⟨10, 11⟩⟩, ⟨.closeParen, ")", ⟨11, 12⟩⟩, ⟨.blank, " ", ⟨12, 13⟩⟩,
        ⟨.connective .and, "and", ⟨13, 16⟩⟩, ⟨.blank, " ", ⟨16, 17⟩⟩, ⟨.field, "c", ⟨17, 18⟩⟩,
        ⟨.comparison .equal, "=", ⟨18, 19⟩⟩, ⟨.literal .int, "3", ⟨19, 20⟩⟩]
    tokens "(a=1 or b=2) and c=3" = .ok scanned ∧
      Derives (.chain .or) (significant scanned)
        (.combine .and
          (.combine .or
            (.leaf ⟨"a", .equal, ⟨.int 1, some ⟨.literal .int, "1", ⟨3, 4⟩⟩⟩⟩)
            (.leaf ⟨"b", .equal, ⟨.int 2, some ⟨.literal .int, "2", ⟨10, 11⟩⟩⟩⟩))
          (.leaf ⟨"c", .equal, ⟨.int 3, some ⟨.literal .int, "3", ⟨19, 20⟩⟩⟩⟩)) := by
  intro scanned
  have scans : tokens "(a=1 or b=2) and c=3" = .ok scanned := by decide +kernel
  exact ⟨scans, (read_eq_ok_iff_derives scans _).1 (by decide +kernel)⟩

end Filter

end SearchQuery.Query
