import SearchQuery.Proofs.Search.Longest
import SearchQuery.Proofs.Search.Moved

/-!
# The places of terms

The tokens of a search text fall into groups side by side, one for each term.  Each group is
read as its term from the start of a text on, whatever stands in front and behind, and its term
stands at the place of the group (`IsGroupOf`).  This is kept from token to token: a token joins
the group of the open term or starts the next group (`Begun.exists_composes`).

So the terms tile their text without gaps, and the text at the place of a term is read as this
one term (`Term.tiles_of_readAll`).
-/

namespace SearchQuery.Search

open Text
open Token (textOf textOf_nil textOf_cons textOf_append Placed placed_append_iff)

namespace Last

/-- The place of what is open. -/
def span : Last → Span
  | nothing => .zero
  | blank token => token.span
  | sigil _ token => token.span
  | term open? _ => open?.span

end Last

namespace Reader

variable {finished : List Term} {last : Last} {token : Token Tag} {after : Reader}

/-! ## The place of the open term -/

/-- What a token opens stands at the place of the token. -/
theorem opened_of_step (spells : Spells token.tag token.lexeme.toList)
    (stepped : start.step token = .ok after) :
    after.finished = [] ∧ after.last ≠ .nothing ∧ after.last.span = token.span := by
  rcases token with ⟨tag, lexeme, span⟩
  cases tag with
  | eof => cases spells
  | error => cases stepped
  | _ =>
      cases stepped
      exact ⟨rfl, Last.noConfusion, rfl⟩

/-- A token that goes on with the open term moves its end. -/
theorem span_of_step (spells : Spells token.tag token.lexeme.toList) (isOpen : last ≠ .nothing)
    (goesOn : last.isClosedBy token.tag = false) (meets : last.span.stop = token.span.start)
    (ordered : last.span.start ≤ last.span.stop) (ordered' : token.span.start ≤ token.span.stop)
    (stepped : step ⟨finished, last⟩ token = .ok after) :
    after.finished = finished ∧ after.last ≠ .nothing ∧
      after.last.span = ⟨last.span.start, token.span.stop⟩ := by
  cases last with
  | nothing => exact absurd rfl isOpen
  | sigil subject sigil =>
      simp only [step] at stepped
      split at stepped <;> cases stepped
      refine ⟨rfl, Last.noConfusion, ?_⟩
      simp only [Last.span] at meets ordered ordered' ⊢
      rw [Last.sigilTerm, Span.merge, Nat.min_eq_left (by omega), Nat.max_eq_right (by omega)]
  | blank blank =>
      rcases token with ⟨tag, lexeme, span⟩
      cases tag with
      | eof => cases spells
      | word =>
          cases stepped
          exact ⟨rfl, Last.noConfusion, rfl⟩
      | _ => cases goesOn
  | term term spaced =>
      rcases token with ⟨tag, lexeme, span⟩
      cases spaced with
      | false =>
          cases tag with
          | eof => cases spells
          | blank =>
              cases stepped
              exact ⟨rfl, Last.noConfusion, rfl⟩
          | _ => cases goesOn
      | true =>
          cases tag with
          | eof => cases spells
          | word =>
              have words : Last.isWords term = true := by
                simpa [Last.isClosedBy] using goesOn
              obtain rfl := Except.ok.inj ((congrArg Except.ok
                (takeWord_of_isWords words)).symm.trans stepped)
              exact ⟨rfl, Last.noConfusion, rfl⟩
          | _ => simp [Last.isClosedBy] at goesOn

/-- What is open at the end of the text is one term, at its place. -/
theorem exists_finish_eq (isOpen : last ≠ .nothing) (ordered : last.span.start ≤ last.span.stop) :
    ∃ term, finish ⟨[], last⟩ (.mark .eof last.span.stop) = [term] ∧ term.span = last.span := by
  cases last with
  | nothing => exact absurd rfl isOpen
  | sigil subject sigil =>
      refine ⟨_, rfl, ?_⟩
      simp only [Last.span] at ordered ⊢
      simp [Last.sigilTerm, Span.merge, Token.mark, Token.ofText, ordered]
  | _ => exact ⟨_, rfl, rfl⟩

/-- A term that the next token closes is the same as at the end of the text. -/
theorem finish_eq_close (closed : last.isClosedBy token.tag = true) (mark : Token Tag) :
    finish ⟨[], last⟩ mark = last.close := by
  cases last with
  | sigil subject sigil => cases closed
  | _ => rfl

end Reader

/-! ## The tokens of a term -/

open Reader

/-- The tokens are read as this one term from the start of a text on, and the term stands at the
place of the tokens. -/
structure IsGroupOf (start : Nat) (group : List (Token Tag)) (term : Term) : Prop where
  nonempty : group ≠ []
  span_eq : term.span = ⟨start, start + width (textOf group)⟩
  reads : ∃ last, Reader.start.Reads group ⟨[], last⟩ ∧
    finish ⟨[], last⟩ (.mark .eof (start + width (textOf group))) = [term]

/-- The tokens fall into groups side by side, one for each term. -/
inductive Composes : Nat → List (Token Tag) → List Term → Prop
  | nil {start : Nat} : Composes start [] []
  | cons {start : Nat} {group tokens : List (Token Tag)} {term : Term} {terms : List Term}
      (first : IsGroupOf start group term)
      (rest : Composes (start + width (textOf group)) tokens terms) :
      Composes start (group ++ tokens) (term :: terms)

/-- What is open was opened by the first of the tokens, and the others went on with it. -/
structure Begun (start : Nat) (group : List (Token Tag)) (last : Last) : Prop where
  reads : Reader.start.Reads group ⟨[], last⟩
  isOpen : last ≠ .nothing
  span_eq : last.span = ⟨start, start + width (textOf group)⟩

namespace Begun

variable {start : Nat} {group rest : List (Token Tag)} {finished : List Term} {last : Last}
  {token : Token Tag} {after : Reader}

theorem ordered (begun : Begun start group last) : last.span.start ≤ last.span.stop := by
  rw [begun.span_eq]
  exact Nat.le_add_right _ _

/-- At the end of the text, the tokens of what is open are those of one term. -/
theorem exists_isGroupOf (begun : Begun start group last) :
    ∃ term, finish ⟨[], last⟩ (.mark .eof (start + width (textOf group))) = [term] ∧
      IsGroupOf start group term := by
  rcases exists_finish_eq begun.isOpen begun.ordered with ⟨term, ends, place⟩
  rcases begun with ⟨reads, isOpen, span_eq⟩
  rw [span_eq] at ends place
  have nonempty : group ≠ [] := by
    rintro rfl
    exact isOpen (congrArg Reader.last (reads_nil_iff.1 reads)).symm
  exact ⟨term, ends, nonempty, place, last, reads, ends⟩

/-- A token that opens something is the first of its group. -/
theorem of_step (spells : Spells token.tag token.lexeme.toList)
    (placed : Placed start (token :: rest)) (stepped : Reader.start.step token = .ok after) :
    after.finished = [] ∧ Begun start [token] after.last := by
  rcases opened_of_step spells stepped with ⟨none, isOpen, place⟩
  refine ⟨none, ?_, isOpen, ?_⟩
  · rw [← none]
    exact reads_cons_iff.2 ⟨after, stepped, reads_nil_iff.2 rfl⟩
  · rw [place, placed.2.1, textOf_cons, textOf_nil, List.append_nil]

/-- A token that goes on with what is open joins its group. -/
theorem step (begun : Begun start group last) (spells : Spells token.tag token.lexeme.toList)
    (placed : Placed (start + width (textOf group)) (token :: rest))
    (goesOn : last.isClosedBy token.tag = false)
    (stepped : Reader.step ⟨finished, last⟩ token = .ok after) :
    after.finished = finished ∧ Begun start (group ++ [token]) after.last := by
  have ordered := begun.ordered
  rcases begun with ⟨reads, isOpen, span_eq⟩
  have alone := step_eq_ok_iff.1 stepped
  rw [if_neg (Bool.eq_false_iff.1 goesOn)] at alone
  rcases alone with ⟨next, alone, rfl⟩
  have place := placed.2.1
  have meets : last.span.stop = token.span.start := by rw [span_eq, place]
  have ordered' : token.span.start ≤ token.span.stop := by
    rw [place]
    exact Nat.le_add_right _ _
  rcases span_of_step spells isOpen goesOn meets ordered ordered' alone with
    ⟨none, isOpen', span_eq'⟩
  refine ⟨rfl, ?_, isOpen', ?_⟩
  · rw [reads_append_iff]
    refine ⟨_, reads, reads_cons_iff.2 ⟨next, alone, ?_⟩⟩
    rw [reads_nil_iff, ← none]
  · rw [span_eq', span_eq, place, textOf_append, textOf_cons, textOf_nil, List.append_nil,
      width_append, Nat.add_assoc]

/-- A token that closes what is open ends its group and is the first of the next one. -/
theorem close (begun : Begun start group last) (spells : Spells token.tag token.lexeme.toList)
    (placed : Placed (start + width (textOf group)) (token :: rest))
    (closed : last.isClosedBy token.tag = true)
    (stepped : Reader.step ⟨finished, last⟩ token = .ok after) :
    ∃ term, after.finished = finished ++ [term] ∧ IsGroupOf start group term ∧
      Begun (start + width (textOf group)) [token] after.last := by
  rcases begun.exists_isGroupOf with ⟨term, ends, isGroup⟩
  have opened := step_eq_ok_iff.1 stepped
  rw [if_pos closed] at opened
  rcases opened with ⟨opened, fresh, rfl⟩
  rw [finish_eq_close closed] at ends
  exact ⟨term, congrArg _ ends, isGroup, (of_step spells placed fresh).2⟩

/-- A run puts each token into a group: the terms behind what was finished are the terms of
these groups. -/
theorem exists_composes {tokens : List (Token Tag)} (begun : Begun start group last)
    (placed : Placed (start + width (textOf group)) tokens)
    (spells : ∀ token ∈ tokens, Spells token.tag token.lexeme.toList)
    (reads : Reader.Reads ⟨finished, last⟩ tokens after) :
    ∃ terms, after.finish (.mark .eof (start + width (textOf (group ++ tokens)))) =
      finished ++ terms ∧ Composes start (group ++ tokens) terms := by
  induction tokens generalizing start group finished last with
  | nil =>
      obtain rfl := reads_nil_iff.1 reads
      rcases begun.exists_isGroupOf with ⟨term, ends, isGroup⟩
      rw [List.append_nil]
      refine ⟨[term], ?_, ?_⟩
      · rw [finish_eq_append, ends]
      · rw [← List.append_nil group]
        exact .cons isGroup .nil
  | cons token tokens ih =>
      rcases reads_cons_iff.1 reads with ⟨⟨done, next⟩, stepped, later⟩
      rcases List.forall_mem_cons.1 spells with ⟨spelled, others⟩
      have behind := placed.2.2
      cases closes : last.isClosedBy token.tag with
      | false =>
          rcases begun.step spelled placed closes stepped with ⟨rfl, longer⟩
          rw [Nat.add_assoc, ← width_append] at behind
          have found := ih longer (by simpa using behind) others later
          rwa [List.append_assoc] at found
      | true =>
          rcases begun.close spelled placed closes stepped with ⟨term, rfl, isGroup, fresh⟩
          rcases ih fresh (by simpa using behind) others later with ⟨terms, ends, composes⟩
          refine ⟨term :: terms, ?_, .cons isGroup composes⟩
          rw [textOf_append, width_append, ← Nat.add_assoc]
          simpa using ends

end Begun

namespace Composes

variable {start : Nat} {tokens : List (Token Tag)} {terms : List Term}

/-- The terms of groups that leave no gap leave no gap. -/
theorem tiles (composes : Composes start tokens terms) (placed : Placed start tokens) :
    Tiles start (terms.map Term.span) (start + width (textOf tokens)) := by
  induction composes with
  | nil => rfl
  | @cons start group tokens term terms first rest ih =>
      rcases placed_append_iff.1 placed with ⟨here, behind⟩
      have positive := width_pos (here.textOf_ne_nil first.nonempty)
      have tiles := ih behind
      rw [List.map_cons, Tiles, first.span_eq]
      rw [Nat.add_assoc, ← width_append, ← textOf_append] at tiles
      exact ⟨rfl, Nat.lt_add_of_pos_right positive, tiles⟩

/-- Each term has its group. -/
theorem exists_isGroupOf_of_mem (composes : Composes start tokens terms) {term : Term}
    (mem : term ∈ terms) :
    ∃ before group behind, tokens = before ++ (group ++ behind) ∧
      IsGroupOf (start + width (textOf before)) group term := by
  induction composes with
  | nil => cases mem
  | @cons start group tokens first terms isGroup rest ih =>
      rcases List.mem_cons.1 mem with rfl | mem
      · exact ⟨[], group, tokens, rfl, isGroup⟩
      · rcases ih mem with ⟨before, own, behind, rfl, isOwn⟩
        refine ⟨group ++ before, own, behind, (List.append_assoc _ _ _).symm, ?_⟩
        rwa [textOf_append, width_append, ← Nat.add_assoc]

end Composes

namespace Term

variable {text : String} {terms : List Term}

theorem IsReadable.isBare_of_isWords {term : Term} (readable : term.IsReadable)
    (words : Last.isWords term = true) : term.isBare = true := by
  have notBlank : term.tag ≠ .blank := by
    intro blank
    simp [Last.isWords, blank] at words
  rwa [← readable.isWords_eq notBlank]

/-- The tokens of a search text that has terms are those of its terms. -/
theorem composes_of_readAll (found : readAll text = .ok terms) :
    Composes 0 (tokens text) terms := by
  rcases readAll_eq_ok_iff.1 found with ⟨after, reads, rfl⟩
  have placed : Placed 0 (tokens text) := placed_tokensFrom 0 text.toList
  have spells : ∀ token ∈ tokens text, Spells token.tag token.lexeme.toList :=
    fun _ => spells_of_mem_tokens
  have whole : textOf (tokens text) = text.toList := textOf_tokensFrom 0 text.toList
  rw [endMark, ← whole]
  generalize tokens text = all at placed spells reads
  cases all with
  | nil =>
      obtain rfl := reads_nil_iff.1 reads
      exact .nil
  | cons token rest =>
      rcases reads_cons_iff.1 reads with ⟨⟨done, last⟩, stepped, later⟩
      rcases List.forall_mem_cons.1 spells with ⟨spelled, others⟩
      rcases Begun.of_step spelled placed stepped with ⟨rfl, begun⟩
      rcases begun.exists_composes (by simpa using placed.2.2) others later with
        ⟨terms, ends, composes⟩
      rw [Nat.zero_add] at ends
      exact ends ▸ composes

/-- A group of tokens is read as its term also if its text stands alone. -/
theorem readAll_of_isGroupOf {start : Nat} {part : List Char} {term : Term}
    (isGroup : IsGroupOf start (tokensFrom start part) term) :
    readAll (String.ofList part) = .ok [term.moved (· - start)] := by
  have monotone : Monotone (· - start) := fun _ _ le => Nat.sub_le_sub_right le start
  rcases isGroup.reads with ⟨last, reads, ends⟩
  have alone := reads.moved monotone
  have ending := finish_moved monotone ⟨[], last⟩
    (.mark .eof (start + width (textOf (tokensFrom start part))))
  rw [map_moved_tokensFrom] at alone
  rw [ends, Token.moved_mark, textOf_tokensFrom, Nat.add_sub_cancel_left] at ending
  rw [readAll_eq_ok_iff, tokens, endMark, String.toList_ofList]
  exact ⟨_, alone, ending⟩

/-- The terms of a search text stand side by side from its start to its end.  Only the first
one can be a blank, and words are never followed by words.  The text at the place of a term is
read as this one term, with its place at the start. -/
theorem tiles_of_readAll (found : readAll text = .ok terms) :
    Tiles 0 (terms.map Term.span) (width text.toList) ∧
      (∀ term ∈ terms.tail, term.tag ≠ .blank) ∧
      (terms.IsChain fun first second =>
        ¬ (Last.isWords first = true ∧ Last.isWords second = true)) ∧
      ∀ term ∈ terms, ∃ part, slice? text.toList term.span = some part ∧
        readAll (String.ofList part) =
          .ok [{ term with span := ⟨0, term.span.stop - term.span.start⟩ }] := by
  have composes := composes_of_readAll found
  have areReadable := areReadable_of_readAll found
  have whole : textOf (tokens text) = text.toList := textOf_tokensFrom 0 text.toList
  refine ⟨?_, ?_, ?_, ?_⟩
  · have tiles := composes.tiles (placed_tokensFrom 0 text.toList)
    rwa [whole, Nat.zero_add] at tiles
  · cases terms with
    | nil => simp
    | cons first rest => exact areReadable.tag_ne_blank_of_mem
  · apply areReadable.follows.imp_of_mem_imp
    rintro first second firstMem secondMem follows ⟨firstWords, secondWords⟩
    have firstBare := (areReadable.readable first firstMem).isBare_of_isWords firstWords
    have secondBare := (areReadable.readable second secondMem).isBare_of_isWords secondWords
    exact Bool.eq_false_iff.1 (follows secondBare).2 firstBare
  · intro term mem
    rcases composes.exists_isGroupOf_of_mem mem with ⟨before, group, behind, split, isGroup⟩
    rcases exists_of_tokensFrom_eq_append split with ⟨front, rest, cutFront, rfl, cutRest, -⟩
    rcases exists_of_tokensFrom_eq_append cutRest with ⟨part, last, rfl, rfl, -, -⟩
    rw [textOf_tokensFrom] at isGroup
    have place := isGroup.span_eq
    have alone := readAll_of_isGroupOf isGroup
    rw [textOf_tokensFrom, Nat.zero_add] at place
    refine ⟨part, ?_, ?_⟩
    · rw [cutFront, place, ← List.append_assoc]
      exact slice?_append front part last
    · rw [alone, moved, Span.moved, place]
      simp

/-- Blanks belong to the term in front of them, at the start to the words behind them, and in a
phrase that is not closed to the phrase. -/
theorem tiles_of_readAll_blanks :
    let text := " say   hi  @ricky \"é "
    let words : Term := ⟨⟨0, 11⟩, .content, "say hi", .fuzzy, .word⟩
    let name : Term := ⟨⟨11, 18⟩, .actor, "ricky", .equal, .word⟩
    let phrase : Term := ⟨⟨18, 22⟩, .content, "é ", .equal, .quoted⟩
    readAll text = .ok [words, name, phrase] ∧
      Tiles 0 [⟨0, 11⟩, ⟨11, 18⟩, ⟨18, 22⟩] (width text.toList) ∧
      ∃ part, slice? text.toList ⟨11, 18⟩ = some part ∧
        readAll (String.ofList part) = .ok [{ name with span := ⟨0, 7⟩ }] := by
  intro text words name phrase
  have found : readAll text = .ok [words, name, phrase] := by decide +kernel
  rcases tiles_of_readAll found with ⟨tiles, -, -, alone⟩
  exact ⟨found, tiles, alone name (by simp)⟩

end Term

end SearchQuery.Search
