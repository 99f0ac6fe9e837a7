import SearchQuery.Proofs.Search.Terms
import SearchQuery.Search.PlainText

/-!
# The pieces that terms are written as

Every term but a blank is written as pieces of search text (`Term.pieces`): bare words as the
words with a space between two of them, everything else as one piece, behind a sigil if the
term has one.  In the text of several terms a space stands between two of them.

These pieces can stand between spaces (`Term.IsReadable.standsAlone`), and pieces that can are
found again in their text (`StandsAlone.joined`).  So the text of the terms of a search text is
cut into the pieces that it was written as.
-/

namespace SearchQuery.Search

open Text

/-! ## Pieces between spaces -/

/-- The space between two words or two terms. -/
def space : Piece Tag :=
  ⟨.blank, [' ']⟩

/-- Groups of pieces with a space between two groups. -/
def joined (groups : List (List (Piece Tag))) : List (Piece Tag) :=
  [space].intercalate groups

/-- The text of groups of pieces has a space between two groups. -/
theorem text_joined (groups : List (List (Piece Tag))) :
    (joined groups).flatMap Piece.text =
      [' '].intercalate (groups.map fun group => group.flatMap Piece.text) := by
  cases groups with
  | nil => rfl
  | cons group groups =>
      rw [joined, intercalate_cons, List.map_cons, intercalate_cons, List.flatMap_append]
      simp [spaced, space, List.flatMap_assoc, List.flatMap_map]

/-- The pieces are found again between two spaces, and leave both spaces alone. -/
structure StandsAlone (pieces : List (Piece Tag)) : Prop where
  separated {rest : List Char} (outside : StartsOutside isWordPart rest) : Separated pieces rest
  outside (rest : List Char) : StartsOutside isBlank (pieces.flatMap Piece.text ++ rest)

theorem standsAlone_word {text : List Char} (word : isWord text = true) :
    StandsAlone [⟨.word, text⟩] := by
  constructor
  · intro rest outside
    exact ⟨.word word, outside, trivial⟩
  · intro rest
    simpa using (Spells.word word).startsOutside_isBlank Tag.noConfusion rest

/-- A piece that never goes on can stand in front of others. -/
theorem standsAlone_cons {piece : Piece Tag} {pieces : List (Piece Tag)}
    (spells : Spells piece.kind piece.text) (notBlank : piece.kind ≠ .blank)
    (closed : ∀ c, goesOn piece c = false)
    (separated : ∀ {rest}, StartsOutside isWordPart rest → Separated pieces rest) :
    StandsAlone (piece :: pieces) := by
  constructor
  · intro rest outside
    exact ⟨spells, fun c _ => closed c, separated outside⟩
  · intro rest
    rw [List.flatMap_cons, List.append_assoc]
    exact spells.startsOutside_isBlank notBlank _

/-- A closed phrase or pattern stands alone, whatever it holds. -/
theorem standsAlone_quoted {inside : List Char} (absent : '"' ∉ inside) :
    StandsAlone [⟨.quoted, '"' :: (inside ++ ['"'])⟩] :=
  standsAlone_cons (.quoted absent) Tag.noConfusion (by simp [goesOn]) fun _ => trivial

theorem standsAlone_regexp {inside : List Char} (absent : '/' ∉ inside) :
    StandsAlone [⟨.regexp, '/' :: (inside ++ ['/'])⟩] :=
  standsAlone_cons (.regexp absent) Tag.noConfusion (by simp [goesOn]) fun _ => trivial

/-- Behind a group that stands alone there can be others, each behind a space. -/
theorem separated_spaced {groups : List (List (Piece Tag))}
    (alone : ∀ group ∈ groups, StandsAlone group) {rest : List Char}
    (outside : StartsOutside isWordPart rest) :
    StartsOutside isWordPart ((spaced space groups).flatMap Piece.text ++ rest) ∧
      Separated (spaced space groups) rest := by
  induction groups with
  | nil => exact ⟨outside, trivial⟩
  | cons group groups ih =>
      rcases List.forall_mem_cons.1 alone with ⟨groupAlone, alone⟩
      rcases ih alone with ⟨starts, separated⟩
      have cons_eq : spaced space (group :: groups) =
          space :: (group ++ spaced space groups) := rfl
      rw [cons_eq]
      refine ⟨startsOutside_cons_iff.2 rfl, .blank rfl (by simp), ?_, ?_⟩
      · rw [List.flatMap_append, List.append_assoc]
        exact groupAlone.outside _
      · exact separated_append_iff.2 ⟨groupAlone.separated starts, separated⟩

/-- Groups that stand alone stand alone together, with spaces between them. -/
theorem StandsAlone.joined {groups : List (List (Piece Tag))} (nonempty : groups ≠ [])
    (alone : ∀ group ∈ groups, StandsAlone group) : StandsAlone (joined groups) := by
  obtain ⟨first, groups, rfl⟩ := List.exists_cons_of_ne_nil nonempty
  rcases List.forall_mem_cons.1 alone with ⟨firstAlone, alone⟩
  rw [Search.joined, intercalate_cons]
  constructor
  · intro rest outside
    rcases separated_spaced alone outside with ⟨starts, separated⟩
    exact separated_append_iff.2 ⟨firstAlone.separated starts, separated⟩
  · intro rest
    rw [List.flatMap_append, List.append_assoc]
    exact firstAlone.outside _

/-! ## The pieces of a term -/

/-- The pieces in front of the value. -/
def Subject.sigil : Subject → List (Piece Tag)
  | .content => []
  | .actor => [⟨.mention, ['@']⟩]
  | .publication => [⟨.publication, ['~']⟩]

theorem standsAlone_sigil {subject : Subject} (sigil : subject ≠ .content) :
    StandsAlone subject.sigil := by
  cases subject with
  | content => exact absurd rfl sigil
  | actor => exact standsAlone_cons .mention Tag.noConfusion (fun _ => rfl) fun _ => trivial
  | publication =>
      exact standsAlone_cons .publication Tag.noConfusion (fun _ => rfl) fun _ => trivial

theorem StandsAlone.sigil {pieces : List (Piece Tag)} (alone : StandsAlone pieces)
    (subject : Subject) : StandsAlone (subject.sigil ++ pieces) := by
  cases subject with
  | content => exact alone
  | actor => exact standsAlone_cons .mention Tag.noConfusion (fun _ => rfl) alone.separated
  | publication =>
      exact standsAlone_cons .publication Tag.noConfusion (fun _ => rfl) alone.separated

/-- The words in a text, each a piece of its own. -/
def wordPieces (text : List Char) : List (Piece Tag) :=
  joined ((text.splitOn ' ').map fun word => [⟨.word, word⟩])

theorem text_wordPieces (text : List Char) : (wordPieces text).flatMap Piece.text = text := by
  rw [wordPieces, text_joined, List.map_map]
  have words : (text.splitOn ' ').map ((fun group => group.flatMap Piece.text) ∘
      fun word => [(⟨Tag.word, word⟩ : Piece Tag)]) = text.splitOn ' ' := by
    simp [Function.comp_def]
  rw [words, List.intercalate_splitOn]

theorem exists_wordPieces (text : List Char) :
    ∃ first words, text = first ++ spaced ' ' words ∧
      wordPieces text =
        ⟨.word, first⟩ :: spaced space (words.map fun word => [⟨.word, word⟩]) := by
  obtain ⟨first, words, split, text_eq⟩ := exists_splitOn_space text
  refine ⟨first, words, text_eq, ?_⟩
  rw [wordPieces, split, List.map_cons, joined, intercalate_cons]
  rfl

theorem wordPieces_of_isWord {text : List Char} (word : isWord text = true) :
    wordPieces text = [⟨.word, text⟩] := by
  rw [wordPieces, List.splitOn_eq_singleton (space_not_mem_of_isWord word)]
  rfl

theorem standsAlone_wordPieces {text : List Char} (many : isWords text = true) :
    StandsAlone (wordPieces text) := by
  apply StandsAlone.joined
  · simp [List.splitOn_ne_nil]
  · intro group mem
    rcases List.mem_map.1 mem with ⟨word, wordMem, rfl⟩
    exact standsAlone_word (List.all_eq_true.1 many word wordMem)

namespace Term

/-- The pieces of the value of a term that is not a blank. -/
def valuePieces (term : Term) : List (Piece Tag) :=
  match term.tag with
  | .word => wordPieces term.value.toList
  | .regexp => [⟨.regexp, '/' :: (term.value.toList ++ ['/'])⟩]
  | _ => [⟨.quoted, '"' :: (term.value.toList ++ ['"'])⟩]

/-- The pieces of a term that is not a blank. -/
def pieces (term : Term) : List (Piece Tag) :=
  term.subject.sigil ++ term.valuePieces

/-- The pieces of terms with a space between two terms. -/
def piecesAll (terms : List Term) : List (Piece Tag) :=
  joined (terms.map pieces)

section

variable {term : Term} {terms : List Term}

theorem phrase_of_not_mem {text : String} (absent : '"' ∉ text.toList) :
    phrase text = "\"" ++ text ++ "\"" := by
  have kept : text.toList.filter (· != '"') = text.toList := by
    apply List.filter_eq_self.2
    intro c mem
    exact bne_iff_ne.2 fun same => absent (same ▸ mem)
  rw [phrase, kept, String.ofList_toList]

/-- A single word stands bare behind its sigil. -/
theorem toList_plainText_name {span : Span} {subject : Subject} {value : String}
    (sigil : subject ≠ .content) (single : isSingleWord value = true) :
    (plainText ⟨span, subject, value, .equal, .word⟩).toList =
      subject.sigil.flatMap Piece.text ++ value.toList := by
  cases subject with
  | content => exact absurd rfl sigil
  | _ => simp [plainText, valueText, single, Subject.sigil]

theorem IsReadable.text_pieces (readable : term.IsReadable) (notBlank : term.tag ≠ .blank) :
    term.pieces.flatMap Piece.text = term.plainText.toList := by
  cases readable with
  | @phrase _ subject _ absent =>
      cases subject <;>
        simp [pieces, Subject.sigil, valuePieces, plainText, valueText, phrase_of_not_mem absent]
  | pattern => simp [pieces, Subject.sigil, valuePieces, plainText]
  | words => simp [pieces, Subject.sigil, valuePieces, plainText, text_wordPieces]
  | blank => exact absurd rfl notBlank
  | name sigil word =>
      rw [toList_plainText_name sigil (isSingleWord_of_isWord word)]
      simp [pieces, valuePieces, text_wordPieces]
  | @missing _ subject sigil =>
      have quoted : isSingleWord "" = false := rfl
      cases subject with
      | content => exact absurd rfl sigil
      | _ =>
          simp [pieces, Subject.sigil, valuePieces, plainText, valueText, quoted,
            phrase_of_not_mem]

theorem IsReadable.standsAlone (readable : term.IsReadable) (notBlank : term.tag ≠ .blank) :
    StandsAlone term.pieces := by
  apply StandsAlone.sigil
  cases readable with
  | phrase absent => exact standsAlone_quoted absent
  | pattern absent => exact standsAlone_regexp absent
  | words many => exact standsAlone_wordPieces many
  | blank => exact absurd rfl notBlank
  | name _ word => exact standsAlone_wordPieces (isWords_of_isWord word)
  | missing => exact standsAlone_quoted List.not_mem_nil

theorem map_text_pieces (readable : ∀ term ∈ terms, term.IsReadable)
    (notBlank : ∀ term ∈ terms, term.tag ≠ .blank) :
    (terms.map pieces).map (fun group => group.flatMap Piece.text) =
      (terms.map plainText).map String.toList := by
  rw [List.map_map, List.map_map]
  apply List.map_congr_left
  intro term mem
  exact (readable term mem).text_pieces (notBlank term mem)

theorem text_piecesAll (readable : ∀ term ∈ terms, term.IsReadable)
    (notBlank : ∀ term ∈ terms, term.tag ≠ .blank) :
    (piecesAll terms).flatMap Piece.text = (plainTextAll terms).toList := by
  rw [piecesAll, text_joined, map_text_pieces readable notBlank, plainTextAll,
    String.toList_intercalate]
  rfl

/-- The pieces of some terms stand alone together. -/
theorem standsAlone_piecesAll (nonempty : terms ≠ []) (readable : ∀ term ∈ terms, term.IsReadable)
    (notBlank : ∀ term ∈ terms, term.tag ≠ .blank) : StandsAlone (piecesAll terms) := by
  apply StandsAlone.joined
  · simpa using nonempty
  · intro group mem
    rcases List.mem_map.1 mem with ⟨term, termMem, rfl⟩
    exact (readable term termMem).standsAlone (notBlank term termMem)

/-- The text of terms that are no blanks is cut into their pieces. -/
theorem cut_plainTextAll (readable : ∀ term ∈ terms, term.IsReadable)
    (notBlank : ∀ term ∈ terms, term.tag ≠ .blank) :
    cut head (plainTextAll terms).toList = piecesAll terms := by
  have separated : Separated (piecesAll terms) [] := by
    by_cases empty : terms = []
    · subst empty
      trivial
    · exact (standsAlone_piecesAll empty readable notBlank).separated (startsOutside_nil _)
  simpa [text_piecesAll readable notBlank] using cut_of_separated separated

/-- A blank in front of the text is cut off, and takes up nothing of the text. -/
theorem cut_blank_plainTextAll {lead : List Char} (spells : Spells .blank lead)
    (readable : ∀ term ∈ terms, term.IsReadable)
    (notBlank : ∀ term ∈ terms, term.tag ≠ .blank) :
    cut head (lead ++ (plainTextAll terms).toList) = ⟨.blank, lead⟩ :: piecesAll terms := by
  have stops : StartsOutside isBlank (plainTextAll terms).toList := by
    rw [← text_piecesAll readable notBlank]
    by_cases empty : terms = []
    · subst empty
      exact startsOutside_nil _
    · simpa using (standsAlone_piecesAll empty readable notBlank).outside []
  rw [← cut_plainTextAll readable notBlank]
  exact @cut_append_of_spells ⟨.blank, lead⟩ _ spells stops

end

end Term

end SearchQuery.Search
