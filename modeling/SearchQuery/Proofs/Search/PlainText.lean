import SearchQuery.Proofs.Search.Pieces

/-!
# Reading the text of terms

The pieces of a term are read as the term, if nothing in front takes them up
(`Reader.exists_reads_pieces`).  Behind a term its successor is not taken up, since bare words
follow no bare words, so the pieces of all terms are read as all terms
(`Reader.exists_reads_piecesAll`).

Therefore the terms of a search text are found again in their own text.  A blank in front of
further terms is the only exception: the space behind it is taken up by the blank
(`Term.AreReadable.exists_readAll_leading_blank`).
-/

namespace SearchQuery.Search

open Text

namespace Term

/-- What the text of a term tells.  The place is not told, and a phrase that is missing is written
as an empty one. -/
def written (term : Term) : Term :=
  .ofValue term.subject term.value term.comparison (if term.tag = .eof then .quoted else term.tag)

theorem isWords_written (term : Term) : Last.isWords term.written = Last.isWords term := by
  rcases term with ⟨span, subject, value, comparison, tag⟩
  cases tag <;> rfl

/-- A term is written as what its text tells. -/
theorem IsReadable.plainText_written {term : Term} (readable : term.IsReadable) :
    term.written.plainText = term.plainText := by
  cases readable with
  | @missing _ subject => cases subject <;> rfl
  | _ => rfl

end Term

open Term (AreReadable)

namespace Reader

section Step

variable {reader : Reader} {token : Token Tag}

/-- Nothing that is open takes up the term. -/
def Awaits (reader : Reader) (term : Term) : Prop :=
  match reader.last with
  | .nothing => True
  | .blank _ => term.isBare = false
  | .sigil _ _ => False
  | .term previous _ => Last.isWords previous = true → term.isBare = false

theorem Awaits.last_ne_sigil {term : Term} (awaits : reader.Awaits term) (subject : Subject)
    (sigil : Token Tag) : reader.last ≠ .sigil subject sigil := by
  intro last
  rw [Awaits, last] at awaits
  exact awaits

theorem step_eq_takePlain (notSigil : ∀ subject sigil, reader.last ≠ .sigil subject sigil)
    (token : Token Tag) : reader.step token = reader.takePlain token := by
  unfold step
  split
  · next last => exact absurd last (notSigil _ _)
  · rfl

/-- A word that starts bare words is not taken up. -/
theorem Awaits.step_word {term : Term} (awaits : reader.Awaits term) (bare : term.isBare = true)
    (tag : token.tag = .word) :
    reader.step token =
      .ok (reader.begin (.term (Last.wordTerm token.span token.lexeme) false)) := by
  rw [step_eq_takePlain awaits.last_ne_sigil, takePlain, tag]
  rcases reader with ⟨finished, last⟩
  cases last with
  | nothing => rfl
  | blank => cases bare.symm.trans awaits
  | sigil => exact awaits.elim
  | term previous spaced =>
      have noWords : Last.isWords previous = false := by
        apply Bool.eq_false_iff.2
        intro words
        cases bare.symm.trans (awaits words)
      cases spaced with
      | false => rfl
      | true => simp [takeWord, noWords]

end Step

/-! ## The pieces of one term -/

section Pieces

variable {reader : Reader} {tokens : List (Token Tag)}

theorem exists_cons_of_map_pieceOf {piece : Piece Tag} {pieces : List (Piece Tag)}
    (same : tokens.map pieceOf = piece :: pieces) :
    ∃ token rest, tokens = token :: rest ∧ token.tag = piece.kind ∧
      token.lexeme.toList = piece.text ∧ rest.map pieceOf = pieces := by
  rcases List.map_eq_cons_iff.1 same with ⟨token, rest, rfl, rfl, others⟩
  exact ⟨token, rest, rfl, rfl, rfl, others⟩

theorem exists_eq_singleton_of_map_pieceOf {piece : Piece Tag}
    (same : tokens.map pieceOf = [piece]) :
    ∃ token, tokens = [token] ∧ token.tag = piece.kind ∧ token.lexeme.toList = piece.text := by
  rcases exists_cons_of_map_pieceOf same with ⟨token, rest, rfl, tag, lexeme, others⟩
  obtain rfl : rest = [] := by simpa using others
  exact ⟨token, rfl, tag, lexeme⟩

/-- Words behind bare words are taken up, each with the space in front of it. -/
theorem exists_reads_spaced_words {finished : List Term} {term : Term}
    (many : Last.isWords term = true) {words : List (List Char)}
    (same : tokens.map pieceOf = spaced space (words.map fun word => [⟨.word, word⟩])) :
    ∃ span, Reads ⟨finished, .term term false⟩ tokens
      ⟨finished, .term { term with
        span, value := term.value ++ String.ofList (spaced ' ' words) } false⟩ := by
  induction words generalizing term tokens with
  | nil =>
      obtain rfl : tokens = [] := by simpa [spaced] using same
      exact ⟨term.span, by simp [spaced]⟩
  | cons word words ih =>
      obtain ⟨blank, others, rfl, blankTag, -, same⟩ := exists_cons_of_map_pieceOf same
      obtain ⟨token, rest, rfl, tokenTag, tokenText, same⟩ := exists_cons_of_map_pieceOf same
      have blankStep : step ⟨finished, .term term false⟩ blank =
          .ok ⟨finished, .term { term with span.stop := blank.span.stop } true⟩ := by
        simp [step, takePlain, blankTag, space, takeBlank]
      have wordStep : step ⟨finished, .term { term with span.stop := blank.span.stop } true⟩ token =
          .ok ⟨finished, .term { term with
            span := ⟨term.span.start, token.span.stop⟩
            value := term.value ++ " " ++ token.lexeme } false⟩ := by
        have open' : Last.isWords { term with span.stop := blank.span.stop } = true := many
        simp [step, takePlain, tokenTag, takeWord, open']
      obtain ⟨span, reads⟩ := @ih rest { term with
        span := ⟨term.span.start, token.span.stop⟩
        value := term.value ++ " " ++ token.lexeme } many same
      refine ⟨span, reads_cons_iff.2 ⟨_, blankStep, reads_cons_iff.2 ⟨_, wordStep, ?_⟩⟩⟩
      have value_eq : term.value ++ " " ++ token.lexeme ++ String.ofList (spaced ' ' words) =
          term.value ++ String.ofList (spaced ' ' (word :: words)) := by
        rw [← String.toList_inj]
        simp [tokenText, spaced]
      rwa [value_eq] at reads

/-- A sigil takes the piece behind it as its text. -/
theorem exists_reads_sigil {subject : Subject} (sigil : subject ≠ .content)
    (notSigil : ∀ subject sigil, reader.last ≠ .sigil subject sigil) {tag : Tag}
    {text : List Char} (isText : tag ∈ sigilText)
    (same : tokens.map pieceOf = subject.sigil ++ [⟨tag, text⟩]) :
    ∃ mark token, token.tag = tag ∧ token.lexeme.toList = text ∧
      reader.Reads tokens (reader.begin (.term (Last.sigilTerm subject mark token) false)) := by
  have rest {mark : Token Tag} {others : List (Token Tag)}
      (same : others.map pieceOf = [⟨tag, text⟩])
      (opened : reader.step mark = .ok (reader.begin (.sigil subject mark))) :
      ∃ token, token.tag = tag ∧ token.lexeme.toList = text ∧
        reader.Reads (mark :: others)
          (reader.begin (.term (Last.sigilTerm subject mark token) false)) := by
    obtain ⟨token, rfl, tokenTag, lexeme⟩ := exists_eq_singleton_of_map_pieceOf same
    refine ⟨token, tokenTag, lexeme, reads_cons_iff.2 ⟨_, opened, reads_cons_iff.2 ⟨_, ?_, rfl⟩⟩⟩
    simp [step, begin, tokenTag, isText]
  cases subject with
  | content => exact absurd rfl sigil
  | actor =>
      obtain ⟨mark, others, rfl, tag, -, same⟩ := exists_cons_of_map_pieceOf same
      refine ⟨mark, rest same ?_⟩
      simp [step_eq_takePlain notSigil, takePlain, tag]
  | publication =>
      obtain ⟨mark, others, rfl, tag, -, same⟩ := exists_cons_of_map_pieceOf same
      refine ⟨mark, rest same ?_⟩
      simp [step_eq_takePlain notSigil, takePlain, tag]

/-- The pieces of bare words are read as one term. -/
theorem exists_reads_wordPieces {value : String}
    (awaits : reader.Awaits (Last.wordTerm .zero value))
    (same : tokens.map pieceOf = wordPieces value.toList) :
    ∃ span, reader.Reads tokens (reader.begin (.term (Last.wordTerm span value) false)) := by
  obtain ⟨first, words, value_eq, pieces_eq⟩ := exists_wordPieces value.toList
  rw [pieces_eq] at same
  obtain ⟨token, rest, rfl, tag, lexeme, same⟩ := exists_cons_of_map_pieceOf same
  obtain ⟨span, reads⟩ := @exists_reads_spaced_words rest
    (reader.finished ++ reader.last.close) (Last.wordTerm token.span token.lexeme) rfl _ same
  refine ⟨span, reads_cons_iff.2 ⟨_, awaits.step_word rfl tag, ?_⟩⟩
  have told : token.lexeme ++ String.ofList (spaced ' ' words) = value := by
    rw [← String.toList_inj]
    simp [lexeme, value_eq]
  simp only [Last.wordTerm, told] at reads
  exact reads

/-- The pieces of a term are read as the term. -/
theorem exists_reads_pieces {term : Term} (readable : term.IsReadable)
    (notBlank : term.tag ≠ .blank) (awaits : reader.Awaits term)
    (same : tokens.map pieceOf = term.pieces) :
    ∃ again, again.written = term.written ∧
      reader.Reads tokens (reader.begin (.term again false)) := by
  cases readable with
  | @phrase span subject value absent =>
      by_cases content : subject = .content
      · subst content
        obtain ⟨token, rfl, tag, lexeme⟩ := exists_eq_singleton_of_map_pieceOf same
        refine ⟨⟨token.span, .content, Delimited.inner '"' token.lexeme, .equal, .quoted⟩, ?_,
          reads_cons_iff.2 ⟨_, ?_, rfl⟩⟩
        · rw [Delimited.inner_of_closed lexeme, String.ofList_toList]
          rfl
        · rw [step_eq_takePlain awaits.last_ne_sigil, takePlain, tag]
      · obtain ⟨mark, token, tag, lexeme, reads⟩ := exists_reads_sigil content
          awaits.last_ne_sigil (by decide) same
        refine ⟨_, ?_, reads⟩
        rw [Last.sigilTerm, Delimited.inner_of_closed lexeme, String.ofList_toList, tag]
        rfl
  | @pattern span value absent =>
      obtain ⟨token, rfl, tag, lexeme⟩ := exists_eq_singleton_of_map_pieceOf same
      refine ⟨⟨token.span, .content, Delimited.inner '/' token.lexeme, .like, .regexp⟩, ?_,
        reads_cons_iff.2 ⟨_, ?_, rfl⟩⟩
      · rw [Delimited.inner_of_closed lexeme, String.ofList_toList]
        rfl
      · rw [step_eq_takePlain awaits.last_ne_sigil, takePlain, tag]
  | @words _ value many =>
      obtain ⟨span, reads⟩ := exists_reads_wordPieces awaits same
      exact ⟨Last.wordTerm span value, rfl, reads⟩
  | blank => exact absurd rfl notBlank
  | @name span subject value sigil word =>
      have pieces_eq : Term.pieces ⟨span, subject, value, .equal, .word⟩ =
          subject.sigil ++ [⟨.word, value.toList⟩] := by
        rw [Term.pieces, Term.valuePieces, wordPieces_of_isWord word]
      rw [pieces_eq] at same
      obtain ⟨mark, token, tag, lexeme, reads⟩ := exists_reads_sigil sigil
        awaits.last_ne_sigil (by decide) same
      obtain rfl : token.lexeme = value := String.toList_inj.1 lexeme
      refine ⟨_, ?_, reads⟩
      rw [Last.sigilTerm, inner_of_isWord word, tag]
      rfl
  | @missing span subject sigil =>
      obtain ⟨mark, token, tag, lexeme, reads⟩ := exists_reads_sigil sigil
        awaits.last_ne_sigil (by decide) same
      refine ⟨_, ?_, reads⟩
      rw [Last.sigilTerm, Delimited.inner_of_closed lexeme, String.ofList_toList, tag]
      rfl

end Pieces

/-! ## The pieces of all terms -/

section All

variable {terms : List Term} {tokens : List (Token Tag)}

/-- Behind a term and a blank the reader waits for every term that can follow. -/
theorem awaits_of_follows {finished : List Term} {previous again term : Term}
    (readable : previous.IsReadable) (notBlank : previous.tag ≠ .blank)
    (told : again.written = previous.written) (follows : previous.Follows term) :
    Awaits ⟨finished, .term again true⟩ term := by
  have sameWords : Last.isWords again = previous.isBare := by
    rw [← Term.isWords_written, told, Term.isWords_written, readable.isWords_eq notBlank]
  intro words
  apply Bool.eq_false_iff.2
  intro bare
  cases (sameWords.symm.trans words).symm.trans (follows bare).2

/-- Behind a term all further terms are read, each behind a space. -/
theorem exists_reads_spaced {finished : List Term} {previous again : Term}
    (areReadable : AreReadable (previous :: terms)) (notBlank : previous.tag ≠ .blank)
    (told : again.written = previous.written)
    (same : tokens.map pieceOf = spaced space (terms.map Term.pieces)) :
    ∃ before last isSpaced,
      Reads ⟨finished, .term again false⟩ tokens ⟨before, .term last isSpaced⟩ ∧
        (before ++ [last]).map Term.written =
          finished.map Term.written ++ (previous :: terms).map Term.written := by
  -- the open term is the one in front of `terms`, as far as its text tells
  induction terms generalizing finished previous again tokens with
  | nil =>
      obtain rfl : tokens = [] := by simpa [spaced] using same
      exact ⟨finished, again, false, rfl, by simp [told]⟩
  | cons term terms ih =>
      have termNotBlank := areReadable.tag_ne_blank_of_mem term List.mem_cons_self
      rcases areReadable with ⟨readable, chain⟩
      rcases List.forall_mem_cons.1 readable with ⟨readablePrevious, readableLater⟩
      rcases List.isChain_cons_cons.1 chain with ⟨follows, chain⟩
      have split : spaced space ((term :: terms).map Term.pieces) =
          space :: (term.pieces ++ spaced space (terms.map Term.pieces)) := rfl
      rw [split] at same
      obtain ⟨blank, others, rfl, blankTag, -, same⟩ := exists_cons_of_map_pieceOf same
      rcases List.map_eq_append_iff.1 same with ⟨front, rest, rfl, sameFront, sameRest⟩
      let moved : Term := { again with span.stop := blank.span.stop }
      have movedTold : moved.written = previous.written := told
      have blankStep : step ⟨finished, .term again false⟩ blank =
          .ok ⟨finished, .term moved true⟩ := by
        simp [step, takePlain, blankTag, space, takeBlank, moved]
      obtain ⟨next, nextTold, reads⟩ := exists_reads_pieces
        (readableLater term List.mem_cons_self) termNotBlank
        (awaits_of_follows readablePrevious notBlank movedTold follows) sameFront
      obtain ⟨before, last, isSpaced, readsLater, toldLater⟩ :=
        @ih _ (finished ++ [moved]) _ _ ⟨readableLater, chain⟩ termNotBlank nextTold sameRest
      refine ⟨before, last, isSpaced,
        reads_cons_iff.2 ⟨_, blankStep, reads_append_iff.2 ⟨_, reads, readsLater⟩⟩, ?_⟩
      rw [toldLater]
      simp [movedTold]

/-- The pieces of terms are read as the terms, behind those that are there already. -/
theorem exists_reads_piecesAll {reader : Reader} (areReadable : AreReadable terms)
    (notSigil : ∀ subject sigil, reader.last ≠ .sigil subject sigil)
    (awaits : ∀ first ∈ terms.head?, first.tag ≠ .blank ∧ reader.Awaits first)
    (same : tokens.map pieceOf = Term.piecesAll terms) :
    ∃ after, reader.Reads tokens after ∧ ∀ mark,
      (after.finish mark).map Term.written =
        (reader.finished ++ reader.last.close).map Term.written ++ terms.map Term.written := by
  cases terms with
  | nil =>
      obtain rfl : tokens = [] := by simpa [Term.piecesAll, joined] using same
      refine ⟨reader, rfl, ?_⟩
      intro mark
      rcases reader with ⟨finished, last⟩
      cases last with
      | sigil subject sigil => exact absurd rfl (notSigil subject sigil)
      | _ => simp [finish]
  | cons first rest =>
      rcases awaits first rfl with ⟨notBlank, awaitsFirst⟩
      rw [Term.piecesAll, List.map_cons, joined, intercalate_cons] at same
      rcases List.map_eq_append_iff.1 same with ⟨front, others, rfl, sameFront, sameOthers⟩
      obtain ⟨again, told, reads⟩ := exists_reads_pieces
        (areReadable.readable first List.mem_cons_self) notBlank awaitsFirst sameFront
      obtain ⟨before, last, isSpaced, readsOthers, toldOthers⟩ :=
        exists_reads_spaced areReadable notBlank told sameOthers
      refine ⟨_, reads_append_iff.2 ⟨_, reads, readsOthers⟩, ?_⟩
      intro mark
      exact toldOthers

end All

end Reader

namespace Term

section Text

variable {terms : List Term}

/-- Terms that are no blanks are read from their text. -/
theorem AreReadable.exists_readAll (areReadable : AreReadable terms)
    (notBlank : ∀ term ∈ terms, term.tag ≠ .blank) :
    ∃ again, readAll (plainTextAll terms) = .ok again ∧
      again.map written = terms.map written := by
  have same : (tokens (plainTextAll terms)).map pieceOf = piecesAll terms := by
    rw [map_pieceOf_tokens, cut_plainTextAll areReadable.readable notBlank]
  have awaits : ∀ first ∈ terms.head?, first.tag ≠ .blank ∧ Reader.start.Awaits first :=
    fun first mem => ⟨notBlank first (List.mem_of_mem_head? mem), trivial⟩
  obtain ⟨after, reads, told⟩ :=
    @Reader.exists_reads_piecesAll _ _ Reader.start areReadable (fun _ _ => Last.noConfusion)
      awaits same
  exact ⟨_, readAll_eq_ok_iff.2 ⟨after, reads, rfl⟩, told _⟩

/-- A blank in front of the text of terms is read as a term, if no bare words take it up. -/
theorem AreReadable.exists_readAll_blank (areReadable : AreReadable terms)
    (notBlank : ∀ term ∈ terms, term.tag ≠ .blank)
    (notBare : ∀ first ∈ terms.head?, first.isBare = false) {lead : String}
    (spells : Spells .blank lead.toList) :
    ∃ again, readAll (lead ++ plainTextAll terms) = .ok again ∧
      again.map written = .ofValue .content lead .fuzzy .blank :: terms.map written := by
  have same : (tokens (lead ++ plainTextAll terms)).map pieceOf =
      ⟨.blank, lead.toList⟩ :: piecesAll terms := by
    rw [map_pieceOf_tokens, String.toList_append,
      cut_blank_plainTextAll spells areReadable.readable notBlank]
  obtain ⟨blank, rest, tokens_eq, tag, lexeme, same⟩ := Reader.exists_cons_of_map_pieceOf same
  have blankStep : Reader.start.step blank = .ok ⟨[], .blank blank⟩ := by
    simp [Reader.step, Reader.start, Reader.takePlain, tag, Reader.takeBlank, Reader.begin,
      Last.close]
  have awaits : ∀ first ∈ terms.head?,
      first.tag ≠ .blank ∧ Reader.Awaits ⟨[], .blank blank⟩ first :=
    fun first mem => ⟨notBlank first (List.mem_of_mem_head? mem), notBare first mem⟩
  obtain ⟨after, reads, told⟩ :=
    @Reader.exists_reads_piecesAll _ _ ⟨[], .blank blank⟩ areReadable (fun _ _ => Last.noConfusion)
      awaits same
  refine ⟨_, readAll_eq_ok_iff.2 ⟨after, ?_, rfl⟩, ?_⟩
  · rw [tokens_eq]
    exact Reader.reads_cons_iff.2 ⟨_, blankStep, reads⟩
  · obtain rfl : blank.lexeme = lead := String.toList_inj.1 lexeme
    exact told _

/-- The space behind a blank is taken up by the blank. -/
theorem AreReadable.exists_readAll_leading_blank {first : Term} {rest : List Term}
    (areReadable : AreReadable (first :: rest)) (blank : first.tag = .blank) :
    ∃ again, readAll (plainTextAll (first :: rest)) = .ok again ∧
      again.map written =
        { first.written with value := first.value ++ if rest = [] then "" else " " } ::
          rest.map written := by
  have notBlank := areReadable.tag_ne_blank_of_mem
  rcases areReadable with ⟨readable, chain⟩
  rcases List.forall_mem_cons.1 readable with ⟨readableFirst, readableRest⟩
  rcases List.isChain_cons.1 chain with ⟨follows, chainRest⟩
  have notBare : ∀ next ∈ rest.head?, next.isBare = false := by
    intro next mem
    apply Bool.eq_false_iff.2
    intro bare
    cases (readableFirst.isBare_of_tag_eq blank).symm.trans (follows next mem bare).2
  cases readableFirst with
  | @blank span value spells =>
      by_cases alone : rest = []
      · subst alone
        obtain ⟨again, found, told⟩ := AreReadable.exists_readAll_blank ⟨readableRest, chainRest⟩
          notBlank notBare spells
        refine ⟨again, ?_, ?_⟩
        · simpa [plainTextAll, plainText] using found
        · simpa [written, ofValue] using told
      · have wider : Spells .blank (value ++ " ").toList := by
          rw [String.toList_append]
          exact spells.concat rfl
        obtain ⟨again, found, told⟩ := AreReadable.exists_readAll_blank ⟨readableRest, chainRest⟩
          notBlank notBare wider
        have text_eq : plainTextAll (⟨span, .content, value, .fuzzy, .blank⟩ :: rest) =
            value ++ " " ++ plainTextAll rest := by
          rw [plainTextAll, List.map_cons, String.intercalate_cons_of_ne_nil (by simpa using alone)]
          rfl
        refine ⟨again, ?_, ?_⟩
        · rwa [text_eq]
        · simpa [written, ofValue, alone] using told
  | _ => cases blank

/-- What is asked for is told. -/
theorem map_request_written (terms : List Term) :
    (terms.map written).map request = terms.map request := by
  rw [List.map_map]
  rfl

/-- The text does not depend on what it does not tell. -/
theorem plainTextAll_of_map_written {again : List Term}
    (readable : ∀ term ∈ terms, term.IsReadable)
    (readableAgain : ∀ term ∈ again, term.IsReadable)
    (told : again.map written = terms.map written) : plainTextAll again = plainTextAll terms := by
  have text {terms : List Term} (readable : ∀ term ∈ terms, term.IsReadable) :
      terms.map plainText = (terms.map written).map plainText := by
    rw [List.map_map]
    exact List.map_congr_left fun term mem => (readable term mem).plainText_written.symm
  rw [plainTextAll, plainTextAll, text readable, text readableAgain, told]

/-- The terms of a search text are found again in the text that they are written as, and are
written in the same way again.  If a blank stands in front of further terms, it is found again
with one more space. -/
theorem exists_readAll_plainTextAll {text : String} (found : readAll text = .ok terms) :
    ((∀ first ∈ terms.head?, first.tag ≠ .blank) ∨ terms.length = 1 →
      ∃ again, readAll (plainTextAll terms) = .ok again ∧
        again.map request = terms.map request ∧ plainTextAll again = plainTextAll terms) ∧
    ∀ first rest, terms = first :: rest → first.tag = .blank → rest ≠ [] →
      ∃ again, readAll (plainTextAll terms) = .ok again ∧
        again.map request =
          (first.subject, first.value ++ " ", first.comparison) :: rest.map request := by
  have areReadable := areReadable_of_readAll found
  have same {again : List Term} (foundAgain : readAll (plainTextAll terms) = .ok again)
      (told : again.map written = terms.map written) :
      again.map request = terms.map request ∧ plainTextAll again = plainTextAll terms := by
    refine ⟨?_, plainTextAll_of_map_written areReadable.readable
      (areReadable_of_readAll foundAgain).readable told⟩
    rw [← map_request_written, told, map_request_written]
  by_cases notBlank : ∀ first ∈ terms.head?, first.tag ≠ .blank
  · obtain ⟨again, foundAgain, told⟩ :=
      areReadable.exists_readAll (areReadable.forall_tag_ne_blank notBlank)
    refine ⟨fun _ => ⟨again, foundAgain, same foundAgain told⟩, ?_⟩
    rintro first rest rfl blank
    exact absurd blank (notBlank first rfl)
  · obtain ⟨first, rest, rfl, blank⟩ :
        ∃ first rest, terms = first :: rest ∧ first.tag = .blank := by
      cases terms with
      | nil => simp at notBlank
      | cons first rest => exact ⟨first, rest, rfl, by simpa using notBlank⟩
    obtain ⟨again, foundAgain, told⟩ := areReadable.exists_readAll_leading_blank blank
    constructor
    · intro alone
      obtain rfl : rest = [] := by simpa [blank] using alone
      exact ⟨again, foundAgain, same foundAgain (by simpa [written, ofValue] using told)⟩
    · rintro _ _ ⟨⟩ - more
      refine ⟨again, foundAgain, ?_⟩
      rw [← map_request_written, told, if_neg more, List.map_cons, map_request_written]
      rfl

/-- Terms that were typed without spaces are found again behind spaces, and a sigil without a text
is found again with an empty phrase.  Only a blank in front becomes longer. -/
theorem exists_readAll_plainTextAll_glued :
    let words : Term := ⟨⟨0, 4⟩, .content, "a b", .fuzzy, .word⟩
    let phrase : Term := ⟨⟨4, 7⟩, .content, "c", .equal, .quoted⟩
    let pattern : Term := ⟨⟨7, 9⟩, .content, "d", .like, .regexp⟩
    let blank : Term := ⟨⟨0, 1⟩, .content, " ", .fuzzy, .blank⟩
    let actor : Term := ⟨⟨1, 2⟩, .actor, "", .equal, .eof⟩
    readAll "a  b\"c\"/d" = .ok [words, phrase, pattern] ∧
      plainTextAll [words, phrase, pattern] = "a b \"c\" /d/" ∧
      (∃ again, readAll (plainTextAll [words, phrase, pattern]) = .ok again ∧
        again.map request =
          [(.content, "a b", .fuzzy), (.content, "c", .equal), (.content, "d", .like)]) ∧
      readAll " @" = .ok [blank, actor] ∧ plainTextAll [blank, actor] = "  @\"\"" ∧
      ∃ again, readAll (plainTextAll [blank, actor]) = .ok again ∧
        again.map request = [(.content, "  ", .fuzzy), (.actor, "", .equal)] := by
  intro words phrase pattern blank actor
  have found : readAll "a  b\"c\"/d" = .ok [words, phrase, pattern] := by decide +kernel
  have foundBlank : readAll " @" = .ok [blank, actor] := by decide +kernel
  have notBlank : ∀ first ∈ [words, phrase, pattern].head?, first.tag ≠ .blank := by
    rintro _ ⟨⟩
    decide
  obtain ⟨again, foundAgain, requests, -⟩ := (exists_readAll_plainTextAll found).1 (.inl notBlank)
  have wider := (exists_readAll_plainTextAll foundBlank).2 _ _ rfl rfl (List.cons_ne_nil _ _)
  exact ⟨found, by decide +kernel, ⟨again, foundAgain, requests⟩, foundBlank, by decide +kernel,
    wider⟩

end Text

end Term

end SearchQuery.Search
