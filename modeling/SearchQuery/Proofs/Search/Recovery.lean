import SearchQuery.Proofs.Canonical.Accepted
import SearchQuery.Proofs.Search.PlainText
import SearchQuery.Search.Filter

/-!
# Terms that are recovered from a query

The conditions of a query that have a form as a term are written as search text.  Two conditions
decide whether the text is read as these terms again: the text of every term that is written
without quotes is bare words with one space between two of them, and no two terms without a sigil
and without delimiters stand side by side.

If both hold, the terms could have been typed (`Term.areReadable_of_isRecovered`).  If they are
found again, both hold: bare terms are read as bare words and apart from each other
(`Term.isWords_of_reread`, `Term.isChain_of_reread`), and a word behind a sigil that is no bare
word holds a control character, which ends the reading
(`Term.not_exists_readAll_of_control`).  The tests that a condition has to pass do not see all
of this.  They look at sigils, quotes, blanks and the first character only.
-/

namespace SearchQuery.Search

open Text Query

/-! ## Control characters in words -/

/-- A single word that is no bare word holds a control character, and nothing before it but a
bare word. -/
theorem exists_control_of_isSingleWord {text : String} (single : isSingleWord text = true)
    (noWord : isWord text.toList = false) :
    ∃ run c rest, text.toList = run ++ c :: rest ∧ (run = [] ∨ isWord run = true) ∧
      isControl c = true ∧ isBlank c = false := by
  rcases isSingleWord_iff.1 single with ⟨bare, noBlank⟩
  rcases isBareText_iff.1 bare with ⟨⟨first, firstMem, -⟩, noSlash, plain⟩
  obtain ⟨run, rest, text_eq, parts, outside⟩ := exists_run isWordPart text.toList
  have runIsWord : run = [] ∨ isWord run = true := by
    cases run with
    | nil => exact .inl rfl
    | cons d run =>
        right
        have notSlash : d ≠ '/' := by simpa [text_eq] using noSlash
        simpa [isWord, notSlash] using parts
  cases rest with
  | nil =>
      rw [List.append_nil] at text_eq
      rw [← text_eq] at runIsWord
      rcases runIsWord with empty | word
      · simp [empty] at firstMem
      · cases noWord.symm.trans word
  | cons c rest =>
      have mem : c ∈ text.toList := by simp [text_eq]
      have notPart : isWordPart c = false := startsOutside_cons_iff.1 outside
      have control : isControl c = true := by
        by_contra notControl
        have part : isWordPart c = true :=
          isWordPart_iff.2 ⟨noBlank c mem, by simpa using notControl, plain c mem⟩
        cases notPart.symm.trans part
      exact ⟨run, c, rest, text_eq, runIsWord, control, noBlank c mem⟩

/-- Words with no blank in them are one word. -/
theorem isWord_of_isWords {text : List Char} (many : isWords text = true)
    (noBlank : ∀ c ∈ text, isBlank c = false) : isWord text = true := by
  have noSpace : ' ' ∉ text := by
    intro mem
    cases noBlank ' ' mem
  simpa [isWords, List.splitOn_eq_singleton noSpace] using many

namespace Reader

/-- A control character ends the reading. -/
theorem Reads.tag_ne_error {reader after : Reader} {tokens : List (Token Tag)}
    (reads : reader.Reads tokens after) : ∀ token ∈ tokens, token.tag ≠ .error := by
  induction tokens generalizing reader with
  | nil => simp
  | cons token tokens ih =>
      rcases reads_cons_iff.1 reads with ⟨middle, stepped, later⟩
      refine List.forall_mem_cons.2 ⟨?_, ih later⟩
      intro error
      unfold step at stepped
      split at stepped
      · simp [error, sigilText] at stepped
      · simp [takePlain, error] at stepped

end Reader

namespace Term

/-! ## The forms of recovered terms -/

/-- The forms of a term that is recovered from a condition. -/
inductive IsRecovered : Term → Prop
  | phrase {subject : Subject} {value : String} (absent : '"' ∉ value.toList) :
      IsRecovered (.ofValue subject value .equal .quoted)
  | pattern {value : String} (absent : '/' ∉ value.toList) :
      IsRecovered (.ofValue .content value .like .regexp)
  | words {value : String} (bare : isBareText value = true) :
      IsRecovered (.ofValue .content value .fuzzy .word)
  | name {subject : Subject} {value : String} (sigil : subject ≠ .content)
      (single : isSingleWord value = true) : IsRecovered (.ofValue subject value .equal .word)

variable {query : String} {filter : Filter} {term : Term}

theorem isRecovered_of_spelling? {subject : Subject} {comparison : Comparison}
    {literal : Literal} {value : String} {tag : Tag} (noQuote : ¬ literal.HasQuote)
    (spelled : spelling? subject comparison literal = some (value, tag)) :
    IsRecovered (.ofValue subject value comparison tag) := by
  have sigil {subject : Subject} {text : String} (notContent : subject ≠ .content)
      (noQuote : '"' ∉ text.toList) :
      IsRecovered
        (.ofValue subject text .equal (if isSingleWord text then .word else .quoted)) := by
    split
    · next single => exact .name notContent single
    · exact .phrase noQuote
  unfold spelling? at spelled
  split at spelled
  · split at spelled
    · next bare =>
      cases spelled
      exact .words bare
    · cases spelled
  · split at spelled
    · next absent =>
      cases spelled
      exact .phrase absent
    · cases spelled
  · split at spelled
    · next absent =>
      cases spelled
      exact .pattern absent
    · cases spelled
  · cases spelled
    exact sigil Subject.noConfusion noQuote
  · cases spelled
    exact sigil Subject.noConfusion noQuote
  · cases spelled

/-- The terms of a query have one of these forms each. -/
theorem isRecovered_of_mem (found : Filter.read query = .ok filter)
    (mem : term ∈ ofFilter filter) : term.IsRecovered := by
  rcases List.mem_filterMap.1 mem with ⟨condition, conditionMem, recovered⟩
  have noQuote := (Filter.isAccepted_of_read found condition conditionMem).noQuote
  unfold ofCondition? at recovered
  split at recovered
  · rcases Option.map_eq_some_iff.1 recovered with ⟨⟨value, tag⟩, spelled, rfl⟩
    exact isRecovered_of_spelling? noQuote spelled
  · cases recovered

/-- A recovered term whose text is bare words, if it has no quotes, is a term of a search text. -/
theorem IsRecovered.isReadable (recovered : term.IsRecovered)
    (plain : term.tag = .word → isWords term.value.toList = true) : term.IsReadable := by
  cases recovered with
  | phrase absent => exact .phrase absent
  | pattern absent => exact .pattern absent
  | words => exact .words (plain rfl)
  | name sigil single =>
      exact .name sigil (isWord_of_isWords (plain rfl) (isSingleWord_iff.1 single).2)

theorem IsRecovered.tag_ne_blank (recovered : term.IsRecovered) : term.tag ≠ .blank := by
  cases recovered <;> exact Tag.noConfusion

theorem IsRecovered.tag_eq_of_isBare (recovered : term.IsRecovered) (bare : term.isBare = true) :
    term.tag = .word := by
  cases recovered with
  | words => rfl
  | _ => simp [ofValue, isBare] at bare

/-! ## Terms that are read as other terms -/

/-- A single word behind a sigil that is no bare word is cut at its first control character. -/
theorem IsRecovered.exists_control (recovered : term.IsRecovered) (word : term.tag = .word)
    (notBare : term.isBare = false) (noWords : isWords term.value.toList = false) :
    ∃ pieces c rest, StandsAlone pieces ∧
      term.plainText.toList = pieces.flatMap Piece.text ++ c :: rest ∧
        isControl c = true ∧ isBlank c = false := by
  cases recovered with
  | phrase => cases word
  | pattern => cases word
  | words => cases notBare
  | @name subject value sigil single =>
      have noWord : isWord value.toList = false := by
        apply Bool.eq_false_iff.2
        intro isWord
        cases noWords.symm.trans (isWords_of_isWord isWord)
      obtain ⟨run, c, rest, value_eq, runIsWord, control, noBlank⟩ :=
        exists_control_of_isSingleWord single noWord
      have text_eq : (ofValue subject value .equal .word).plainText.toList =
          subject.sigil.flatMap Piece.text ++ value.toList := toList_plainText_name sigil single
      rw [value_eq, ← List.append_assoc] at text_eq
      rcases runIsWord with rfl | word
      · exact ⟨subject.sigil, c, rest, standsAlone_sigil sigil, by simpa using text_eq, control,
          noBlank⟩
      · exact ⟨subject.sigil ++ [⟨.word, run⟩], c, rest, (standsAlone_word word).sigil subject,
          by simpa using text_eq, control, noBlank⟩

/-- Text in which a control character stands behind pieces that stand alone is not read, if it
follows the text of readable terms. -/
theorem not_exists_readAll_of_control {before after : List Term}
    (readable : ∀ term ∈ before, term.IsReadable) (notBlank : ∀ term ∈ before, term.tag ≠ .blank)
    {pieces : List (Piece Tag)} {c : Char} {rest : List Char} (alone : StandsAlone pieces)
    (text_eq : term.plainText.toList = pieces.flatMap Piece.text ++ c :: rest)
    (control : isControl c = true) (noBlank : isBlank c = false) :
    ¬ ∃ again, readAll (plainTextAll (before ++ term :: after)) = .ok again := by
  rintro ⟨again, found⟩
  rcases readAll_eq_ok_iff.1 found with ⟨state, reads, -⟩
  let groups := before.map Term.pieces ++ [pieces]
  have groupsAlone : ∀ group ∈ groups, StandsAlone group := by
    refine List.forall_mem_append.2 ⟨?_, by simpa using alone⟩
    intro group mem
    rcases List.mem_map.1 mem with ⟨other, otherMem, rfl⟩
    exact (readable other otherMem).standsAlone (notBlank other otherMem)
  have standsAlone : StandsAlone (joined groups) := .joined (by simp [groups]) groupsAlone
  have text : (plainTextAll (before ++ term :: after)).toList =
      (joined groups).flatMap Piece.text ++
        c :: (rest ++ spaced ' ' ((after.map plainText).map String.toList)) := by
    rw [text_joined, List.map_append, map_text_pieces readable notBlank, plainTextAll,
      String.toList_intercalate, List.map_append, List.map_append, List.map_cons, List.map_cons,
      text_eq]
    exact intercalate_append_cons ' ' _ _ _ _
  have outside : StartsOutside isWordPart
      (c :: (rest ++ spaced ' ' ((after.map plainText).map String.toList))) := by
    simp [isWordPart, control]
  have errorMem : ⟨.error, [c]⟩ ∈ cut head (plainTextAll (before ++ term :: after)).toList := by
    rw [text, cut_of_separated (standsAlone.separated outside), cut_cons,
      head_of_isControl control noBlank]
    simp
  rw [← map_pieceOf_tokens] at errorMem
  rcases List.mem_map.1 errorMem with ⟨token, tokenMem, piece_eq⟩
  exact reads.tag_ne_error token tokenMem (congrArg Piece.kind piece_eq)

/-! ## When recovered terms are read again -/

/-- Bare words and blanks are the only bare terms of a search text. -/
theorem IsReadable.isWords_of_isBareText (readable : term.IsReadable) (bare : term.isBare = true)
    (isText : isBareText term.value = true) : isWords term.value.toList = true := by
  cases readable with
  | words many => exact many
  | blank spells =>
      cases (isBareText_of_isBlank fun c mem => spells.isBlank_of_mem mem).symm.trans isText
  | _ => simp [isBare] at bare

/-- Which terms are bare can be told from what they ask for. -/
theorem map_isBare_eq {terms again : List Term} (same : again.map request = terms.map request) :
    again.map isBare = terms.map isBare := by
  have told (terms : List Term) : terms.map isBare =
      (terms.map request).map fun request => request.1 == .content && request.2.2 == .fuzzy := by
    rw [List.map_map]
    rfl
  rw [told, same, ← told]

section Terms

variable {terms again : List Term}

/-- Recovered terms are readable together if their text is bare words wherever it has no quotes,
and if no two of them that are bare stand side by side. -/
theorem areReadable_of_isRecovered (recovered : ∀ term ∈ terms, term.IsRecovered)
    (plain : ∀ term ∈ terms, term.tag = .word → isWords term.value.toList = true)
    (apart : terms.IsChain fun first second => ¬ (first.isBare = true ∧ second.isBare = true)) :
    AreReadable terms where
  readable term mem := (recovered term mem).isReadable (plain term mem)
  follows := by
    apply apart.imp_of_mem_imp
    intro first second _ mem notBoth bare
    exact ⟨(recovered second mem).tag_eq_of_isBare bare,
      Bool.eq_false_iff.2 fun firstBare => notBoth ⟨firstBare, bare⟩⟩

/-- Bare terms that are found again are bare words. -/
theorem isWords_of_reread (recovered : ∀ term ∈ terms, term.IsRecovered)
    (areReadable : AreReadable again) (same : again.map request = terms.map request)
    {term : Term} (mem : term ∈ terms) (bare : term.isBare = true) :
    isWords term.value.toList = true := by
  have requested : term.request ∈ again.map request := same ▸ List.mem_map_of_mem mem
  rcases List.mem_map.1 requested with ⟨other, otherMem, request_eq⟩
  have sameBare : other.isBare = term.isBare := by
    simpa using @map_isBare_eq [term] [other] (by simpa using request_eq)
  have value_eq : other.value = term.value := congrArg (·.2.1) request_eq
  have isText : isBareText term.value = true := by
    cases recovered term mem with
    | words isText => exact isText
    | _ => simp [ofValue, isBare] at bare
  rw [← value_eq] at isText ⊢
  exact (areReadable.readable other otherMem).isWords_of_isBareText (sameBare.trans bare) isText

/-- Bare terms that are found again are apart. -/
theorem isChain_of_reread (areReadable : AreReadable again)
    (same : again.map request = terms.map request) :
    terms.IsChain fun first second => ¬ (first.isBare = true ∧ second.isBare = true) := by
  have apart : again.IsChain fun first second =>
      ¬ (first.isBare = true ∧ second.isBare = true) := by
    apply areReadable.follows.imp
    rintro first second follows ⟨firstBare, secondBare⟩
    cases firstBare.symm.trans (follows secondBare).2
  have flags : (again.map isBare).IsChain fun first second => ¬ (first = true ∧ second = true) :=
    (List.isChain_map isBare).2 apart
  rw [map_isBare_eq same] at flags
  exact (List.isChain_map isBare).1 flags

end Terms

/-- The terms of a query are found again in their text exactly if the text of every term without
quotes is bare words, with one space between two of them, and no two terms without a sigil and
without delimiters stand side by side. -/
theorem exists_readAll_ofFilter_iff (found : Filter.read query = .ok filter) :
    (∃ again, readAll (plainTextAll (ofFilter filter)) = .ok again ∧
        again.map request = (ofFilter filter).map request) ↔
      (∀ term ∈ ofFilter filter, term.tag = .word → isWords term.value.toList = true) ∧
        (ofFilter filter).IsChain fun first second =>
          ¬ (first.isBare = true ∧ second.isBare = true) := by
  have recovered : ∀ term ∈ ofFilter filter, term.IsRecovered :=
    fun _ mem => isRecovered_of_mem found mem
  generalize ofFilter filter = terms at recovered ⊢
  constructor
  · rintro ⟨again, foundAgain, same⟩
    have areReadable := areReadable_of_readAll foundAgain
    refine ⟨?_, isChain_of_reread areReadable same⟩
    -- the first term that breaks the condition would be cut at a control character
    let broken (term : Term) : Bool := term.tag == .word && !isWords term.value.toList
    cases search : terms.find? broken with
    | none =>
        intro term mem word
        simpa [broken, word] using List.find?_eq_none.1 search term mem
    | some term =>
        exfalso
        obtain ⟨isBroken, before, after, rfl, good⟩ := List.find?_eq_some_iff_append.1 search
        simp only [broken, Bool.and_eq_true, beq_iff_eq, Bool.not_eq_true'] at isBroken
        rcases isBroken with ⟨word, noWords⟩
        have notBare : term.isBare = false := by
          apply Bool.eq_false_iff.2
          intro bare
          have many := isWords_of_reread recovered areReadable same (by simp) bare
          cases noWords.symm.trans many
        rcases List.forall_mem_append.1 recovered with ⟨recoveredBefore, others⟩
        obtain ⟨pieces, c, rest, alone, text_eq, control, noBlank⟩ :=
          (others term List.mem_cons_self).exists_control word notBare noWords
        have readable : ∀ other ∈ before, other.IsReadable := by
          intro other mem
          apply (recoveredBefore other mem).isReadable
          simpa [broken, imp_iff_not_or] using good other mem
        have notBlank : ∀ other ∈ before, other.tag ≠ .blank :=
          fun other mem => (recoveredBefore other mem).tag_ne_blank
        exact not_exists_readAll_of_control readable notBlank alone text_eq control noBlank
          ⟨again, foundAgain⟩
  · rintro ⟨plain, apart⟩
    obtain ⟨again, foundAgain, told⟩ := (areReadable_of_isRecovered recovered plain
      apart).exists_readAll fun term mem => (recovered term mem).tag_ne_blank
    refine ⟨again, foundAgain, ?_⟩
    rw [← map_request_written, told, map_request_written]

/-- Words, a name of two words behind a sigil and a pattern are found again.  The number has no
form as a term and is left out. -/
theorem exists_readAll_ofFilter_name :
    let query := "content~\"a b\" and (size>1 or actor=\"c d\") and content~=/e f/"
    let words : Condition :=
      ⟨"content", .fuzzy, ⟨.string "a b", some ⟨.literal .string, "\"a b\"", ⟨8, 13⟩⟩⟩⟩
    let size : Condition := ⟨"size", .greater, ⟨.int 1, some ⟨.literal .int, "1", ⟨24, 25⟩⟩⟩⟩
    let name : Condition :=
      ⟨"actor", .equal, ⟨.string "c d", some ⟨.literal .string, "\"c d\"", ⟨35, 40⟩⟩⟩⟩
    let pattern : Condition :=
      ⟨"content", .like, ⟨.regexp "e f", some ⟨.literal .regexp, "/e f/", ⟨55, 60⟩⟩⟩⟩
    let filter := Filter.combine .and
      (.combine .and (.leaf words) (.combine .or (.leaf size) (.leaf name))) (.leaf pattern)
    Filter.read query = .ok filter ∧ plainTextAll (ofFilter filter) = "a b @\"c d\" /e f/" ∧
      ∃ again, readAll (plainTextAll (ofFilter filter)) = .ok again ∧
        again.map request = (ofFilter filter).map request := by
  intro query words size name pattern filter
  have found : Filter.read query = .ok filter := by decide +kernel
  have terms : ofFilter filter =
      [.ofValue .content "a b" .fuzzy .word, .ofValue .actor "c d" .equal .quoted,
        .ofValue .content "e f" .like .regexp] := by decide +kernel
  refine ⟨found, by decide +kernel, (exists_readAll_ofFilter_iff found).2 ⟨?_, ?_⟩⟩
  · rw [terms]
    decide +kernel
  · rw [terms]
    decide +kernel

/-- The slash inside `content~"a /b/"` passes the test, but starts a pattern when the text is read
again. -/
theorem readAll_ofFilter_inner_slash :
    let words : Condition :=
      ⟨"content", .fuzzy, ⟨.string "a /b/", some ⟨.literal .string, "\"a /b/\"", ⟨8, 15⟩⟩⟩⟩
    Filter.read "content~\"a /b/\"" = .ok (.leaf words) ∧
      (ofFilter (.leaf words)).map request = [(.content, "a /b/", .fuzzy)] ∧
      ∃ again, readAll (plainTextAll (ofFilter (.leaf words))) = .ok again ∧
        again.map request = [(.content, "a", .fuzzy), (.content, "b", .like)] := by
  intro words
  have found : Filter.read "content~\"a /b/\"" = .ok (.leaf words) := by decide +kernel
  have foundAgain : readAll (plainTextAll (ofFilter (.leaf words))) =
      .ok [⟨⟨0, 2⟩, .content, "a", .fuzzy, .word⟩, ⟨⟨2, 5⟩, .content, "b", .like, .regexp⟩] := by
    decide +kernel
  exact ⟨found, by decide +kernel, _, foundAgain, rfl⟩

end Term

end SearchQuery.Search
