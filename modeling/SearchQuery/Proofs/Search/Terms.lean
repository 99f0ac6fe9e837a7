import SearchQuery.Proofs.Search.Words
import SearchQuery.Proofs.Text.Run
import SearchQuery.Search.Reader

/-!
# The terms of a search text

A term of a search text has one of six forms (`Term.IsReadable`).  A blank alone can only be
the first term, no bare words follow it, and bare words are never followed by bare words,
since they would have made one term (`Term.Follows`).

Every state of the reader keeps to this (`Reader.Sound.step`), as long as no blank is followed
by a blank and no word by a word, which the scan never gives.  So the terms of every search
text are of these forms and in this order (`areReadable_of_readAll`).
-/

namespace SearchQuery.Search

open Text

namespace Term

/-- Whether the term is written without a sigil and without delimiters. -/
def isBare (term : Term) : Bool :=
  term.subject == .content && term.comparison == .fuzzy

/-- The forms of a term: a phrase, alone or behind a sigil, a pattern, bare words, a blank, a
word behind a sigil, and a sigil whose text is still missing. -/
inductive IsReadable : Term → Prop
  | phrase {span : Span} {subject : Subject} {value : String} (absent : '"' ∉ value.toList) :
      IsReadable ⟨span, subject, value, .equal, .quoted⟩
  | pattern {span : Span} {value : String} (absent : '/' ∉ value.toList) :
      IsReadable ⟨span, .content, value, .like, .regexp⟩
  | words {span : Span} {value : String} (words : isWords value.toList = true) :
      IsReadable ⟨span, .content, value, .fuzzy, .word⟩
  | blank {span : Span} {value : String} (spells : Spells .blank value.toList) :
      IsReadable ⟨span, .content, value, .fuzzy, .blank⟩
  | name {span : Span} {subject : Subject} {value : String} (sigil : subject ≠ .content)
      (word : isWord value.toList = true) : IsReadable ⟨span, subject, value, .equal, .word⟩
  | missing {span : Span} {subject : Subject} (sigil : subject ≠ .content) :
      IsReadable ⟨span, subject, "", .equal, .eof⟩

/-- Which term can stand behind which: bare words only behind a term that is not bare, and a
blank behind none. -/
def Follows (first second : Term) : Prop :=
  second.isBare = true → second.tag = .word ∧ first.isBare = false

/-- The terms that a search text can have. -/
structure AreReadable (terms : List Term) : Prop where
  readable : ∀ term ∈ terms, term.IsReadable
  follows : terms.IsChain Follows

/-- The place of a term does not matter. -/
theorem IsReadable.move {term : Term} (readable : term.IsReadable) (span : Span) :
    IsReadable { term with span } := by
  cases readable with
  | phrase absent => exact .phrase absent
  | pattern absent => exact .pattern absent
  | words words => exact .words words
  | blank spells => exact .blank spells
  | name sigil word => exact .name sigil word
  | missing sigil => exact .missing sigil

/-- A word behind bare words makes longer words. -/
theorem IsReadable.extend {term : Term} (readable : term.IsReadable)
    (words : Last.isWords term = true) {word : String} (isWord : isWord word.toList = true)
    (span : Span) : IsReadable { term with span, value := term.value ++ " " ++ word } := by
  cases readable with
  | words many => exact .words (by simp [isWords_append, many, isWords_of_isWord isWord])
  | name sigil => simp [Last.isWords, sigil] at words
  | _ => simp [Last.isWords] at words

/-- Terms that are made of words are the bare ones, blanks apart. -/
theorem IsReadable.isWords_eq {term : Term} (readable : term.IsReadable)
    (notBlank : term.tag ≠ .blank) : Last.isWords term = term.isBare := by
  rw [Bool.eq_iff_iff]
  cases readable with
  | blank => exact absurd rfl notBlank
  | name sigil => simp [Last.isWords, isBare, sigil]
  | _ => simp [Last.isWords, isBare]

theorem IsReadable.isBare_of_tag_eq {term : Term} (readable : term.IsReadable)
    (blank : term.tag = .blank) : term.isBare = true := by
  cases readable with
  | blank => rfl
  | _ => cases blank

theorem areReadable_nil : AreReadable [] :=
  ⟨by simp, .nil⟩

theorem areReadable_singleton {term : Term} (readable : term.IsReadable) :
    AreReadable [term] :=
  ⟨by simpa using readable, .singleton term⟩

namespace AreReadable

variable {terms : List Term} {term other : Term}

/-- One more term that can stand behind the last one. -/
theorem concat (areReadable : AreReadable terms) (readable : term.IsReadable)
    (follows : ∀ last ∈ terms.getLast?, last.Follows term) : AreReadable (terms ++ [term]) where
  readable := List.forall_mem_append.2 ⟨areReadable.readable, by simpa using readable⟩
  follows := List.isChain_append.2
    ⟨areReadable.follows, .singleton term, by simpa using follows⟩

/-- One more term that is not bare. -/
theorem concat_of_isBare_eq (areReadable : AreReadable terms) (readable : term.IsReadable)
    (notBare : term.isBare = false) : AreReadable (terms ++ [term]) := by
  apply areReadable.concat readable
  intro last _ bare
  simp [notBare] at bare

/-- The last term changes into another one of its kind. -/
theorem replace (areReadable : AreReadable (terms ++ [term])) (readable : other.IsReadable)
    (sameBare : other.isBare = term.isBare) (sameTag : other.tag = term.tag) :
    AreReadable (terms ++ [other]) := by
  rcases List.forall_mem_append.1 areReadable.readable with ⟨front, -⟩
  rcases List.isChain_append.1 areReadable.follows with ⟨chain, -, follows⟩
  refine AreReadable.concat ⟨front, chain⟩ readable ?_
  intro last mem
  have before := follows last mem term rfl
  rwa [Follows, ← sameBare, ← sameTag] at before

theorem last (areReadable : AreReadable (terms ++ [term])) : term.IsReadable :=
  areReadable.readable term (by simp)

/-- Only the first term can be a blank. -/
theorem tag_ne_blank_of_mem (areReadable : AreReadable (term :: terms)) :
    ∀ later ∈ terms, later.tag ≠ .blank := by
  induction terms generalizing term with
  | nil => simp
  | cons second rest ih =>
      rcases areReadable with ⟨readable, chain⟩
      rcases List.isChain_cons_cons.1 chain with ⟨follows, chain⟩
      have readableTail := (List.forall_mem_cons.1 readable).2
      refine List.forall_mem_cons.2 ⟨?_, ih ⟨readableTail, chain⟩⟩
      intro blank
      have bare := (readableTail second List.mem_cons_self).isBare_of_tag_eq blank
      cases blank.symm.trans (follows bare).1

theorem forall_tag_ne_blank (areReadable : AreReadable terms)
    (notBlank : ∀ first ∈ terms.head?, first.tag ≠ .blank) : ∀ term ∈ terms, term.tag ≠ .blank := by
  cases terms with
  | nil => simp
  | cons first rest =>
      exact List.forall_mem_cons.2 ⟨notBlank first rfl, areReadable.tag_ne_blank_of_mem⟩

end AreReadable

end Term

open Term (AreReadable Follows)

namespace Reader

/-- Taking the tokens one after the other leads from the first reader to the second. -/
def Reads (reader : Reader) (tokens : List (Token Tag)) (after : Reader) : Prop :=
  tokens.foldlM step reader = .ok after

@[simp]
theorem reads_nil_iff {reader after : Reader} : reader.Reads [] after ↔ reader = after := by
  simp [Reads, pure, Except.pure]

theorem reads_cons_iff {reader after : Reader} {token : Token Tag}
    {tokens : List (Token Tag)} :
    reader.Reads (token :: tokens) after ↔
      ∃ middle, reader.step token = .ok middle ∧ middle.Reads tokens after :=
  foldlM_cons_eq_ok_iff

theorem reads_append_iff {reader after : Reader} {first second : List (Token Tag)} :
    reader.Reads (first ++ second) after ↔
      ∃ middle, reader.Reads first middle ∧ middle.Reads second after :=
  foldlM_append_eq_ok_iff

/-! ## What every state keeps to -/

/-- What is open can be told from the terms in front: a blank is open in front of all terms
only, and so is nothing. -/
def Opens (finished : List Term) : Last → Prop
  | .nothing => finished = []
  | .blank _ => finished = []
  | .sigil subject _ => subject ≠ .content
  | .term term _ => term.tag ≠ .blank

/-- The terms so far, the open one among them, are terms that a search text can have. -/
structure Sound (reader : Reader) : Prop where
  areReadable : AreReadable (reader.finished ++ reader.last.close)
  opens : Opens reader.finished reader.last

/-- The tag of the token that was taken last. -/
def lastTag? (reader : Reader) : Option Tag :=
  match reader.last with
  | .nothing => none
  | .blank _ => some .blank
  | .sigil _ token => some token.tag
  | .term _ true => some .blank
  | .term term false => some term.tag

/-- The tags of two tokens side by side: a blank or a word that another one follows would
have taken it up. -/
def Apart (first second : Tag) : Prop :=
  first = second → first ≠ .blank ∧ first ≠ .word

theorem sound_start : start.Sound :=
  ⟨Term.areReadable_nil, rfl⟩

section Step

variable {finished : List Term} {last : Last} {term other : Term} {token : Token Tag}

/-- Another term is opened behind what is there. -/
theorem Sound.begin_term (sound : Sound ⟨finished, last⟩) (readable : term.IsReadable)
    (notBlank : term.tag ≠ .blank)
    (follows : ∀ previous ∈ (finished ++ last.close).getLast?, previous.Follows term) :
    Sound (begin ⟨finished, last⟩ (.term term false)) :=
  ⟨sound.areReadable.concat readable follows, notBlank⟩

/-- A term that is not bare can stand behind every term. -/
theorem Sound.begin_of_isBare_eq (sound : Sound ⟨finished, last⟩) (readable : term.IsReadable)
    (notBlank : term.tag ≠ .blank) (notBare : term.isBare = false) :
    Sound (begin ⟨finished, last⟩ (.term term false)) :=
  ⟨sound.areReadable.concat_of_isBare_eq readable notBare, notBlank⟩

theorem Sound.begin_sigil (sound : Sound ⟨finished, last⟩) {subject : Subject}
    (sigil : subject ≠ .content) (token : Token Tag) :
    Sound (begin ⟨finished, last⟩ (.sigil subject token)) := by
  refine ⟨?_, sigil⟩
  rw [begin, Last.close, List.append_nil]
  exact sound.areReadable

theorem Sound.last_term {spaced : Bool} (sound : Sound ⟨finished, .term term spaced⟩) :
    term.IsReadable ∧ term.tag ≠ .blank :=
  ⟨sound.areReadable.last, sound.opens⟩

/-- The open term changes into another one of its kind. -/
theorem Sound.replace {spaced : Bool} (sound : Sound ⟨finished, .term term spaced⟩)
    (readable : other.IsReadable) (sameBare : other.isBare = term.isBare)
    (sameTag : other.tag = term.tag) (spaced' : Bool) :
    Sound ⟨finished, .term other spaced'⟩ := by
  refine ⟨sound.areReadable.replace readable sameBare sameTag, ?_⟩
  rw [Opens, sameTag]
  exact sound.last_term.2

/-- Bare words are opened behind a term that is not made of words. -/
theorem Sound.begin_word {spaced : Bool} (sound : Sound ⟨finished, .term term spaced⟩)
    (noWords : Last.isWords term = false) (readable : other.IsReadable) (tag : other.tag = .word) :
    Sound (begin ⟨finished, .term term spaced⟩ (.term other false)) := by
  rcases sound.last_term with ⟨readableTerm, notBlank⟩
  apply sound.begin_term readable (by simp [tag])
  intro previous mem _
  rw [Last.close, List.getLast?_concat, Option.mem_some] at mem
  rw [← mem, ← readableTerm.isWords_eq notBlank]
  exact ⟨tag, noWords⟩

theorem Sound.takeBlank (sound : Sound ⟨finished, last⟩)
    (apart : lastTag? ⟨finished, last⟩ ≠ some .blank)
    (notSigil : ∀ subject sigil, last ≠ .sigil subject sigil)
    (spells : Spells .blank token.lexeme.toList) :
    (Reader.takeBlank ⟨finished, last⟩ token).Sound := by
  have alone : Term.AreReadable [Last.blankTerm token] :=
    Term.areReadable_singleton (.blank spells)
  cases last with
  | nothing =>
      obtain rfl : finished = [] := sound.opens
      exact ⟨alone, rfl⟩
  | blank => exact absurd rfl apart
  | sigil subject sigil => exact absurd rfl (notSigil subject sigil)
  | term term spaced =>
      cases spaced with
      | true => exact absurd rfl apart
      | false =>
          have moved := sound.last_term.1.move ⟨term.span.start, token.span.stop⟩
          exact sound.replace moved rfl rfl true

theorem Sound.takeWord (sound : Sound ⟨finished, last⟩)
    (apart : lastTag? ⟨finished, last⟩ ≠ some .word)
    (notSigil : ∀ subject sigil, last ≠ .sigil subject sigil)
    (word : isWord token.lexeme.toList = true) :
    (Reader.takeWord ⟨finished, last⟩ token).Sound := by
  have readable (span : Span) : (Last.wordTerm span token.lexeme).IsReadable :=
    .words (isWords_of_isWord word)
  cases last with
  | nothing =>
      obtain rfl : finished = [] := sound.opens
      exact ⟨Term.areReadable_singleton (readable _), Tag.noConfusion⟩
  | blank blank =>
      obtain rfl : finished = [] := sound.opens
      exact ⟨Term.areReadable_singleton (readable _), Tag.noConfusion⟩
  | sigil subject sigil => exact absurd rfl (notSigil subject sigil)
  | term term spaced =>
      cases noWords : Last.isWords term with
      | false =>
          have begun := sound.begin_word noWords (readable token.span) rfl
          cases spaced with
          | false => exact begun
          | true => simpa [Reader.takeWord, noWords] using begun
      | true =>
          cases spaced with
          | false =>
              -- the word in front would have taken this one up
              simp [Last.isWords] at noWords
              simp [lastTag?, noWords.2] at apart
          | true =>
              have longer := sound.last_term.1.extend noWords word
                ⟨term.span.start, token.span.stop⟩
              simpa [Reader.takeWord, noWords] using sound.replace longer rfl rfl false

/-- The text of a sigil may be a phrase, a word, or missing. -/
theorem isReadable_sigilTerm {subject : Subject} (notContent : subject ≠ .content)
    (sigil : Token Tag) (text : token.tag ∈ sigilText)
    (spells : Spells token.tag token.lexeme.toList ∨ token.lexeme = "" ∧ token.tag = .eof) :
    (Last.sigilTerm subject sigil token).IsReadable := by
  rcases token with ⟨tag, lexeme, span⟩
  rcases spells with spells | ⟨rfl, rfl⟩
  · simp only [sigilText, List.mem_cons, List.not_mem_nil, or_false] at text
    rcases text with rfl | rfl | rfl
    · exact .phrase spells.quote_not_mem_inner
    · cases spells with
      | word word =>
          rw [Last.sigilTerm, inner_of_isWord word]
          exact .name notContent word
    · cases spells
  · exact .missing notContent

theorem Sound.takePlain (sound : Sound ⟨finished, last⟩)
    (notSigil : ∀ subject sigil, last ≠ .sigil subject sigil)
    (spells : Spells token.tag token.lexeme.toList)
    (apart : ∀ tag ∈ lastTag? ⟨finished, last⟩, Apart tag token.tag) {after : Reader}
    (taken : Reader.takePlain ⟨finished, last⟩ token = .ok after) : after.Sound := by
  rcases token with ⟨tag, lexeme, span⟩
  cases tag with
  | blank =>
      cases taken
      exact sound.takeBlank (fun same => (apart _ same rfl).1 rfl) notSigil spells
  | word =>
      cases taken
      cases spells with
      | word word => exact sound.takeWord (fun same => (apart _ same rfl).2 rfl) notSigil word
  | quoted =>
      cases taken
      exact sound.begin_of_isBare_eq (.phrase spells.quote_not_mem_inner) Tag.noConfusion rfl
  | regexp =>
      cases taken
      exact sound.begin_of_isBare_eq (.pattern spells.slash_not_mem_inner) Tag.noConfusion rfl
  | mention =>
      cases taken
      exact sound.begin_sigil Subject.noConfusion _
  | publication =>
      cases taken
      exact sound.begin_sigil Subject.noConfusion _
  | eof => cases spells
  | error => cases taken

/-- A step keeps to the forms and the order of terms. -/
theorem Sound.step (sound : Sound ⟨finished, last⟩)
    (spells : Spells token.tag token.lexeme.toList)
    (apart : ∀ tag ∈ lastTag? ⟨finished, last⟩, Apart tag token.tag) {after : Reader}
    (stepped : Reader.step ⟨finished, last⟩ token = .ok after) : after.Sound := by
  cases last with
  | sigil subject sigil =>
      simp only [Reader.step] at stepped
      split at stepped
      · next text =>
          cases stepped
          have areReadable : AreReadable finished := by
            simpa [Last.close] using sound.areReadable
          have readable := isReadable_sigilTerm sound.opens sigil text (.inl spells)
          have notBlank : (Last.sigilTerm subject sigil token).tag ≠ .blank := by
            intro blank
            simp only [Last.sigilTerm] at blank
            simp [blank, sigilText] at text
          exact ⟨areReadable.concat_of_isBare_eq readable (by simp [Last.sigilTerm, Term.isBare]),
            notBlank⟩
      · cases stepped
  | _ => exact sound.takePlain (by simp) spells apart stepped

end Step

/-! ## What a whole text has -/

section Run

variable {reader after : Reader}

theorem lastTag?_takeBlank (reader : Reader) (token : Token Tag) :
    (reader.takeBlank token).lastTag? = some .blank := by
  unfold takeBlank
  split <;> rfl

theorem lastTag?_takeWord (reader : Reader) (token : Token Tag) :
    (reader.takeWord token).lastTag? = some .word := by
  unfold takeWord
  split
  · rfl
  · split
    · next words =>
        simp only [Last.isWords, Bool.and_eq_true, beq_iff_eq] at words
        exact congrArg some words.2
    · rfl
  · rfl

/-- The token that a step takes is the last one. -/
theorem lastTag?_of_step {token : Token Tag} (spells : Spells token.tag token.lexeme.toList)
    (stepped : reader.step token = .ok after) : after.lastTag? = some token.tag := by
  unfold step at stepped
  split at stepped
  · split at stepped <;> cases stepped
    rfl
  · rcases token with ⟨tag, lexeme, span⟩
    cases tag with
    | blank =>
        cases stepped
        exact lastTag?_takeBlank _ _
    | word =>
        cases stepped
        exact lastTag?_takeWord _ _
    | eof => cases spells
    | error => cases stepped
    | _ =>
        cases stepped
        rfl

/-- A run keeps to the forms and the order of terms. -/
theorem Sound.reads {tokens : List (Token Tag)} (sound : reader.Sound)
    (spells : ∀ token ∈ tokens, Spells token.tag token.lexeme.toList)
    (apart : (reader.lastTag?.toList ++ tokens.map Token.tag).IsChain Apart)
    (reads : reader.Reads tokens after) : after.Sound := by
  induction tokens generalizing reader with
  | nil =>
      obtain rfl := reads_nil_iff.1 reads
      exact sound
  | cons token tokens ih =>
      rcases reads_cons_iff.1 reads with ⟨middle, stepped, later⟩
      rcases List.forall_mem_cons.1 spells with ⟨spelled, others⟩
      rcases List.isChain_append.1 apart with ⟨-, behind, here⟩
      apply ih (sound.step spelled ?_ stepped) others ?_ later
      · intro tag mem
        rw [Option.mem_def.1 mem] at here
        exact here tag rfl _ rfl
      · rwa [lastTag?_of_step spelled stepped]

/-- What the reader has at the end are terms that a search text can have. -/
theorem Sound.areReadable_finish (sound : reader.Sound) {mark : Token Tag}
    (tag : mark.tag = .eof) (lexeme : mark.lexeme = "") : AreReadable (reader.finish mark) := by
  rcases reader with ⟨finished, last⟩
  cases last with
  | sigil subject sigil =>
      have areReadable : AreReadable finished := by
        simpa [Last.close] using sound.areReadable
      have readable := @isReadable_sigilTerm mark subject sound.opens sigil
        (by simp [tag, sigilText]) (.inr ⟨lexeme, tag⟩)
      exact areReadable.concat_of_isBare_eq readable (by simp [Last.sigilTerm, Term.isBare])
  | _ => exact sound.areReadable

end Run

end Reader

/-! ## Tokens side by side -/

/-- No blank is followed by a blank, and no word by a word. -/
theorem isChain_apart_cut (text : List Char) :
    (cut head text).IsChain fun piece next => Reader.Apart piece.kind next.kind := by
  apply (isChain_cut text).imp_of_mem_imp
  intro piece next _ mem stops same
  have spells := spells_of_mem_cut mem
  rcases piece with ⟨kind, front⟩
  rcases next with ⟨kind', behind⟩
  obtain rfl : kind = kind' := same
  constructor
  · rintro rfl
    cases spells with
    | blank first => simp [goesOn, first] at stops
  · rintro rfl
    cases spells with
    | word word =>
        rcases exists_cons_of_isWord word with ⟨first, rest, rfl, -, part, -⟩
        simp [goesOn, part] at stops

theorem spells_of_mem_tokens {text : String} {token : Token Tag} (mem : token ∈ tokens text) :
    Spells token.tag token.lexeme.toList := by
  have found : pieceOf token ∈ cut head text.toList := by
    rw [← map_pieceOf_tokens]
    exact List.mem_map_of_mem mem
  exact spells_of_mem_cut found

theorem isChain_apart_tokens (text : String) :
    ((tokens text).map Token.tag).IsChain Reader.Apart := by
  have chain := isChain_apart_cut text.toList
  rw [← map_pieceOf_tokens, List.isChain_map] at chain
  rwa [List.isChain_map]

namespace Term

theorem readAll_eq_ok_iff {text : String} {terms : List Term} :
    readAll text = .ok terms ↔
      ∃ after, Reader.start.Reads (tokens text) after ∧ after.finish (endMark text) = terms := by
  simp only [readAll, Reader.Reads, bind, Except.bind, pure, Except.pure]
  cases (tokens text).foldlM Reader.step Reader.start <;> simp

/-- The terms of a search text have one of the six forms each, and stand in this order. -/
theorem areReadable_of_readAll {text : String} {terms : List Term}
    (found : readAll text = .ok terms) : AreReadable terms := by
  rcases readAll_eq_ok_iff.1 found with ⟨after, reads, rfl⟩
  have sound : after.Sound :=
    Reader.sound_start.reads (fun _ => spells_of_mem_tokens) (isChain_apart_tokens text) reads
  exact sound.areReadable_finish rfl rfl

end Term

end SearchQuery.Search
