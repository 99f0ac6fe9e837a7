import SearchQuery.Proofs.Search.Recovery

/-!
# Terms behind sigils

A term on an actor or a publication is written behind its sigil, in quotes if its text would not
be read as a single word.  The text of such a term tells no more than a phrase or a single word
does (`Term.plainText_respelled`), and neighbours behind sigils do not run together.  The test for
a single word does not look for control characters, though, and so a word that holds one is
written without quotes and not read again.  Words of that kind apart, the terms are always found
again (`Term.exists_readAll_sigils_iff`).
-/

namespace SearchQuery.Search

open Text
open Query (Literal Comparison)

namespace Term

/-- A term for equality behind a sigil. -/
structure IsNamed (term : Term) : Prop where
  sigil : term.subject ≠ .content
  equal : term.comparison = .equal

/-- Whether the text of the term is written without quotes behind its sigil. -/
def isUnquoted (term : Term) : Bool :=
  term.tag != .quoted && isSingleWord term.value

/-- What the text of a term behind a sigil tells. -/
def respelled (term : Term) : Term :=
  .ofValue term.subject (Literal.withoutQuotes term.value) .equal
    (if term.isUnquoted then .word else .quoted)

variable {term : Term}

theorem valueText_eq (term : Term) :
    term.valueText = if term.isUnquoted then term.value else phrase term.value := by
  by_cases quoted : term.tag = .quoted <;> by_cases single : isSingleWord term.value = true <;>
    simp [valueText, isUnquoted, quoted, single]

/-- A single word holds no quote. -/
theorem withoutQuotes_of_isUnquoted (unquoted : term.isUnquoted = true) :
    Literal.withoutQuotes term.value = term.value := by
  have single := (Bool.and_eq_true_iff.1 unquoted).2
  have plain := (isBareText_iff.1 (isSingleWord_iff.1 single).1).2.2
  exact Literal.withoutQuotes_eq_self_iff.2 fun mem => (plain '"' mem).2.2 rfl

theorem respelled_of_isUnquoted (unquoted : term.isUnquoted = true) :
    term.respelled = .ofValue term.subject term.value .equal .word := by
  rw [respelled, if_pos unquoted, withoutQuotes_of_isUnquoted unquoted]

theorem respelled_of_isUnquoted_eq (quoted : term.isUnquoted = false) :
    term.respelled = .ofValue term.subject (Literal.withoutQuotes term.value) .equal .quoted := by
  rw [respelled, quoted, if_neg Bool.false_ne_true]

/-- Quotes inside a phrase leave no trace in its text. -/
theorem phrase_withoutQuotes (text : String) :
    phrase (Literal.withoutQuotes text) = phrase text := by
  simp [phrase, Literal.withoutQuotes]

/-- A term behind a sigil is written as what its text tells. -/
theorem plainText_respelled (named : term.IsNamed) :
    term.respelled.plainText = term.plainText := by
  have valueText : term.respelled.valueText = term.valueText := by
    rw [valueText_eq term]
    cases unquoted : term.isUnquoted with
    | true =>
        have single := (Bool.and_eq_true_iff.1 unquoted).2
        rw [respelled_of_isUnquoted unquoted]
        simp [ofValue, Term.valueText, single]
    | false =>
        rw [respelled_of_isUnquoted_eq unquoted]
        simp [ofValue, Term.valueText, phrase_withoutQuotes]
  have subject : term.respelled.subject = term.subject := rfl
  unfold plainText
  rw [subject, valueText]
  cases about : term.subject with
  | content => exact absurd about named.sigil
  | _ => rfl

theorem isRecovered_respelled (named : term.IsNamed) : term.respelled.IsRecovered := by
  cases unquoted : term.isUnquoted with
  | true =>
      rw [respelled_of_isUnquoted unquoted]
      exact .name named.sigil (Bool.and_eq_true_iff.1 unquoted).2
  | false =>
      rw [respelled_of_isUnquoted_eq unquoted]
      exact .phrase (Literal.quote_not_mem_withoutQuotes term.value)

theorem isBare_respelled (term : Term) : term.respelled.isBare = false := by
  simp [respelled, ofValue, isBare]

/-- A single word is a bare word exactly if it holds no control character. -/
theorem isWords_iff_of_isSingleWord {text : String} (single : isSingleWord text = true) :
    isWords text.toList = true ↔ ∀ c ∈ text.toList, isControl c = false := by
  constructor
  · intro many c mem
    have word := isWord_of_isWords many (isSingleWord_iff.1 single).2
    exact (isWordPart_iff.1 (isWordPart_of_mem word c mem)).2.1
  · intro noControl
    by_contra noWords
    have noWord : isWord text.toList = false := by
      apply Bool.eq_false_iff.2
      intro word
      exact noWords (isWords_of_isWord word)
    obtain ⟨run, c, rest, text_eq, -, control, -⟩ :=
      exists_control_of_isSingleWord single noWord
    have mem : c ∈ text.toList := by simp [text_eq]
    cases control.symm.trans (noControl c mem)

/-- The words among the texts behind sigils are bare words exactly if those without quotes hold
no control character. -/
theorem isWords_respelled_iff :
    (term.respelled.tag = .word → isWords term.respelled.value.toList = true) ↔
      (term.isUnquoted = true → ∀ c ∈ term.value.toList, isControl c = false) := by
  cases unquoted : term.isUnquoted with
  | true =>
      rw [respelled_of_isUnquoted unquoted,
        ← isWords_iff_of_isSingleWord (Bool.and_eq_true_iff.1 unquoted).2]
      simp [ofValue]
  | false =>
      rw [respelled_of_isUnquoted_eq unquoted]
      simp [ofValue]

section Terms

variable {terms : List Term}

/-- Recovered terms, none of them bare, are found again if the words among them are bare words. -/
theorem exists_readAll_of_isWords (recovered : ∀ term ∈ terms, term.IsRecovered)
    (notBare : ∀ term ∈ terms, term.isBare = false)
    (plain : ∀ term ∈ terms, term.tag = .word → isWords term.value.toList = true) :
    ∃ again, readAll (plainTextAll terms) = .ok again ∧
      again.map request = terms.map request := by
  have apart : terms.Pairwise fun first second =>
      ¬ (first.isBare = true ∧ second.isBare = true) := by
    refine List.pairwise_of_forall_mem_list ?_
    rintro first mem - - ⟨bare, -⟩
    cases (notBare first mem).symm.trans bare
  obtain ⟨again, foundAgain, told⟩ := (areReadable_of_isRecovered recovered plain
    apart.isChain).exists_readAll fun term mem => (recovered term mem).tag_ne_blank
  refine ⟨again, foundAgain, ?_⟩
  rw [← map_request_written, told, map_request_written]

/-- Recovered terms, none of them bare, are not read if some word among them is no bare word: the
first of these is cut at a control character. -/
theorem isWords_of_exists_readAll (recovered : ∀ term ∈ terms, term.IsRecovered)
    (notBare : ∀ term ∈ terms, term.isBare = false)
    (found : ∃ again, readAll (plainTextAll terms) = .ok again) :
    ∀ term ∈ terms, term.tag = .word → isWords term.value.toList = true := by
  let broken (term : Term) : Bool := term.tag == .word && !isWords term.value.toList
  cases search : terms.find? broken with
  | none =>
      intro term mem word
      simpa [broken, word] using List.find?_eq_none.1 search term mem
  | some term =>
      exfalso
      obtain ⟨isBroken, before, after, rfl, good⟩ := List.find?_eq_some_iff_append.1 search
      simp only [broken, Bool.and_eq_true, beq_iff_eq, Bool.not_eq_true'] at isBroken
      rcases isBroken with ⟨word, noWords⟩
      rcases List.forall_mem_append.1 recovered with ⟨recoveredBefore, others⟩
      obtain ⟨pieces, c, rest, alone, text_eq, control, noBlank⟩ :=
        (others term List.mem_cons_self).exists_control word (notBare term (by simp)) noWords
      have readable : ∀ other ∈ before, other.IsReadable := by
        intro other mem
        apply (recoveredBefore other mem).isReadable
        simpa [broken, imp_iff_not_or] using good other mem
      have notBlank : ∀ other ∈ before, other.tag ≠ .blank :=
        fun other mem => (recoveredBefore other mem).tag_ne_blank
      exact not_exists_readAll_of_control readable notBlank alone text_eq control noBlank found

theorem plainTextAll_respelled (named : ∀ term ∈ terms, term.IsNamed) :
    plainTextAll (terms.map respelled) = plainTextAll terms := by
  rw [plainTextAll, plainTextAll, List.map_map]
  congr 1
  exact List.map_congr_left fun term mem => plainText_respelled (named term mem)

/-- Terms for equality behind sigils, whatever their texts and their tags are, are found again
exactly if no control character stands in a text that is written without quotes.  When the text
of the terms is read at all, each of them is found, in order, with its text but for the quotes
in it. -/
theorem exists_readAll_sigils_iff (named : ∀ term ∈ terms, term.IsNamed) :
    ((∃ again, readAll (plainTextAll terms) = .ok again) ↔
      ∀ term ∈ terms, term.isUnquoted = true → ∀ c ∈ term.value.toList, isControl c = false) ∧
    ∀ again, readAll (plainTextAll terms) = .ok again → again.map request =
      terms.map fun term => (term.subject, Literal.withoutQuotes term.value, term.comparison) := by
  have recovered : ∀ term ∈ terms.map respelled, term.IsRecovered :=
    List.forall_mem_map.2 fun term mem => isRecovered_respelled (named term mem)
  have notBare : ∀ term ∈ terms.map respelled, term.isBare = false :=
    List.forall_mem_map.2 fun term _ => isBare_respelled term
  have requests : (terms.map respelled).map request = terms.map fun term =>
      (term.subject, Literal.withoutQuotes term.value, term.comparison) := by
    rw [List.map_map]
    apply List.map_congr_left
    intro term mem
    rw [(named term mem).equal]
    rfl
  have words : (∀ term ∈ terms.map respelled, term.tag = .word →
      isWords term.value.toList = true) ↔
        ∀ term ∈ terms, term.isUnquoted = true → ∀ c ∈ term.value.toList, isControl c = false := by
    rw [List.forall_mem_map]
    exact forall₂_congr fun term _ => isWords_respelled_iff
  rw [← plainTextAll_respelled named, ← words, ← requests]
  have found := exists_readAll_of_isWords recovered notBare
  have plain := isWords_of_exists_readAll recovered notBare
  refine ⟨⟨plain, fun isWords => (found isWords).imp fun _ => And.left⟩, ?_⟩
  intro again foundAgain
  obtain ⟨other, foundOther, told⟩ := found (plain ⟨again, foundAgain⟩)
  rw [foundAgain] at foundOther
  cases foundOther
  exact told

end Terms

/-- A name of two words is put in quotes, and so is a title that begins as a pattern does, without
the quote in it.  A slash inside a word stands as it is.  All three are found again. -/
theorem exists_readAll_sigils_quoted :
    let name : Term := .ofValue .actor "c d" .equal .word
    let title : Term := .ofValue .publication "/x\"fm" .equal .regexp
    let word : Term := .ofValue .actor "a/b" .equal .blank
    (∀ term ∈ [name, title, word], term.IsNamed) ∧
      plainTextAll [name, title, word] = "@\"c d\" ~\"/xfm\" @a/b" ∧
      ∃ again, readAll (plainTextAll [name, title, word]) = .ok again ∧ again.map request =
        [(.actor, "c d", .equal), (.publication, "/xfm", .equal),
          (.actor, "a/b", .equal)] := by
  intro name title word
  have named : ∀ term ∈ [name, title, word], term.IsNamed := by
    intro term mem
    simp only [List.mem_cons, List.not_mem_nil, or_false] at mem
    rcases mem with rfl | rfl | rfl <;> exact ⟨by decide, rfl⟩
  have plain : ∀ term ∈ [name, title, word], term.isUnquoted = true →
      ∀ c ∈ term.value.toList, isControl c = false := by
    have checked : [name, title, word].all (fun term =>
        !term.isUnquoted || term.value.toList.all (!isControl ·)) = true := by
      decide +kernel
    intro term mem unquoted
    have checkedTerm := List.all_eq_true.1 checked term mem
    simpa [unquoted] using checkedTerm
  obtain ⟨again, found⟩ := (exists_readAll_sigils_iff named).1.2 plain
  refine ⟨named, by decide +kernel, again, found, ?_⟩
  rw [(exists_readAll_sigils_iff named).2 again found]
  decide +kernel

/-- A control character passes the test for a single word, and so the text of its term is written
without quotes and not read. -/
theorem not_exists_readAll_sigils_control :
    let name : Term := .ofValue .actor "a\u0001b" .equal .word
    name.IsNamed ∧ plainTextAll [name] = "@a\u0001b" ∧
      ¬ ∃ again, readAll (plainTextAll [name]) = .ok again := by
  intro name
  have text : plainTextAll [name] = "@a\u0001b" := by decide +kernel
  have failed : (readAll "@a\u0001b").toOption = none := by decide +kernel
  refine ⟨⟨by decide, rfl⟩, text, ?_⟩
  rw [text]
  rintro ⟨again, found⟩
  rw [found] at failed
  cases failed

end Term

end SearchQuery.Search
