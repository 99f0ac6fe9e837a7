import Mathlib.Data.List.Chain
import SearchQuery.Proofs.Scan.Lexeme
import SearchQuery.Proofs.Text.Extent
import SearchQuery.Proofs.Text.Locality
import SearchQuery.Search.Lexeme

/-!
# Spelling the pieces of search text

Every tag of search text has a class of texts that spell it (`Spells`), and a piece goes on
with the characters that would belong to it (`goesOn`).  A phrase or a pattern that is not
closed goes on with every character.

The pieces of a text are spelled (`spells_of_mem_cut`), and none of them goes on in the next
one (`isChain_cut`).  The other way, spelled pieces that do not run together are found again
in their text (`cut_of_separated`).
-/

namespace SearchQuery.Search

open Text

/-- Whether the text is one bare word. -/
def isWord : List Char → Bool
  | [] => false
  | first :: rest => first != '/' && isWordPart first && rest.all isWordPart

/-- The texts that spell a piece, by its tag. -/
inductive Spells : Tag → List Char → Prop
  | mention : Spells .mention ['@']
  | publication : Spells .publication ['~']
  | quoted {inside : List Char} (absent : '"' ∉ inside) :
      Spells .quoted ('"' :: (inside ++ ['"']))
  | openQuoted {inside : List Char} (absent : '"' ∉ inside) : Spells .quoted ('"' :: inside)
  | regexp {inside : List Char} (absent : '/' ∉ inside) :
      Spells .regexp ('/' :: (inside ++ ['/']))
  | openRegexp {inside : List Char} (absent : '/' ∉ inside) : Spells .regexp ('/' :: inside)
  | blank {first : Char} {rest : List Char} (firstBlank : isBlank first = true)
      (restBlank : ∀ c ∈ rest, isBlank c = true) : Spells .blank (first :: rest)
  | word {text : List Char} (word : isWord text = true) : Spells .word text
  | error {c : Char} (control : isControl c = true) (notBlank : isBlank c = false) :
      Spells .error [c]

/-- Whether a piece goes on with the character. -/
def goesOn (piece : Piece Tag) : Char → Bool :=
  match piece.kind with
  | .blank => isBlank
  | .word => isWordPart
  | .quoted => fun _ => '"' ∉ piece.text.tail
  | .regexp => fun _ => '/' ∉ piece.text.tail
  | _ => fun _ => false

/-! ## Characters -/

theorem exists_cons_of_isWord {text : List Char} (word : isWord text = true) :
    ∃ first rest, text = first :: rest ∧ first ≠ '/' ∧ isWordPart first = true ∧
      ∀ c ∈ rest, isWordPart c = true := by
  cases text with
  | nil => cases word
  | cons first rest =>
      simp only [isWord, Bool.and_eq_true, bne_iff_ne, List.all_eq_true] at word
      exact ⟨first, rest, rfl, word.1.1, word.1.2, word.2⟩

theorem isWordPart_of_mem {text : List Char} (word : isWord text = true) :
    ∀ c ∈ text, isWordPart c = true := by
  rcases exists_cons_of_isWord word with ⟨first, rest, rfl, -, part, parts⟩
  exact List.forall_mem_cons.2 ⟨part, parts⟩

/-- The parts of words are the characters that are of no other class. -/
theorem isWordPart_iff {c : Char} :
    isWordPart c = true ↔
      isBlank c = false ∧ isControl c = false ∧ c ≠ '@' ∧ c ≠ '~' ∧ c ≠ '"' := by
  simp [isWordPart, and_assoc]

/-! ## What the texts of pieces hold -/

theorem Spells.isBlank_of_mem {text : List Char} (spells : Spells .blank text) {c : Char}
    (mem : c ∈ text) : isBlank c = true := by
  cases spells with
  | blank firstBlank restBlank =>
      exact (@List.forall_mem_cons _ (isBlank · = true) _ _).2 ⟨firstBlank, restBlank⟩ c mem

/-- Only a blank begins with a blank character. -/
theorem Spells.startsOutside_isBlank {tag : Tag} {text : List Char} (spells : Spells tag text)
    (notBlank : tag ≠ .blank) (rest : List Char) : StartsOutside isBlank (text ++ rest) := by
  cases spells with
  | blank => exact absurd rfl notBlank
  | word word =>
      rcases exists_cons_of_isWord word with ⟨first, more, rfl, -, part, -⟩
      exact startsOutside_cons_iff.2 (isWordPart_iff.1 part).1
  | error _ outside => exact startsOutside_cons_iff.2 outside
  | _ => exact startsOutside_cons_iff.2 rfl

theorem Spells.concat {text : List Char} (spells : Spells .blank text) {c : Char}
    (blank : isBlank c = true) : Spells .blank (text ++ [c]) := by
  cases spells with
  | blank firstBlank restBlank =>
      exact .blank firstBlank (List.forall_mem_append.2 ⟨restBlank, by simpa using blank⟩)

theorem Spells.quote_not_mem_inner {lexeme : String}
    (spells : Spells .quoted lexeme.toList) :
    '"' ∉ (Delimited.inner '"' lexeme).toList := by
  generalize text_eq : lexeme.toList = text at spells
  cases spells with
  | quoted absent => simpa [Delimited.inner_of_closed text_eq] using absent
  | openQuoted absent => simpa [Delimited.inner_of_open absent text_eq] using absent

theorem Spells.slash_not_mem_inner {lexeme : String}
    (spells : Spells .regexp lexeme.toList) :
    '/' ∉ (Delimited.inner '/' lexeme).toList := by
  generalize text_eq : lexeme.toList = text at spells
  cases spells with
  | regexp absent => simpa [Delimited.inner_of_closed text_eq] using absent
  | openRegexp absent => simpa [Delimited.inner_of_open absent text_eq] using absent

/-- A word holds no quote that could be taken off. -/
theorem inner_of_isWord {lexeme : String} (word : isWord lexeme.toList = true) :
    Delimited.inner '"' lexeme = lexeme := by
  apply Delimited.inner_of_not_mem
  intro mem
  cases isWordPart_of_mem word '"' mem

/-! ## The first piece -/

/-- The first piece of a text that does not begin with a sigil or a delimiter. -/
theorem head_of_ne {c : Char} (notMention : c ≠ '@') (notPublication : c ≠ '~')
    (notQuote : c ≠ '"') (notSlash : c ≠ '/') (rest : List Char) :
    head c rest =
      if isBlank c then (.blank, (rest.takeWhile isBlank).length)
      else if isControl c then (.error, 0)
      else (.word, (rest.takeWhile isWordPart).length) := by
  rw [head, if_neg notMention, if_neg notPublication, if_neg notQuote, if_neg notSlash]

theorem head_of_isBlank {c : Char} (blank : isBlank c = true) (rest : List Char) :
    head c rest = (.blank, (rest.takeWhile isBlank).length) := by
  have other {d : Char} (notBlank : isBlank d = false) : c ≠ d := by
    rintro rfl
    simp [blank] at notBlank
  rw [head_of_ne (other rfl) (other rfl) (other rfl) (other rfl), if_pos blank]

theorem head_of_isWordPart {c : Char} (part : isWordPart c = true) (notSlash : c ≠ '/')
    (rest : List Char) : head c rest = (.word, (rest.takeWhile isWordPart).length) := by
  obtain ⟨notBlank, notControl, notMention, notPublication, notQuote⟩ := isWordPart_iff.1 part
  rw [head_of_ne notMention notPublication notQuote notSlash, if_neg (by simp [notBlank]),
    if_neg (by simp [notControl])]

theorem head_of_isControl {c : Char} (control : isControl c = true)
    (notBlank : isBlank c = false) (rest : List Char) : head c rest = (.error, 0) := by
  have other {d : Char} (notControl : isControl d = false) : c ≠ d := by
    rintro rfl
    simp [control] at notControl
  rw [head_of_ne (other rfl) (other rfl) (other rfl) (other rfl), if_neg (by simp [notBlank]),
    if_pos control]

/-- A spelled piece that does not go on is the first piece. -/
theorem head_of_spells {piece : Piece Tag} {rest : List Char}
    (spells : Spells piece.kind piece.text) (stops : StartsOutside (goesOn piece) rest) :
    ∃ first tail, piece.text = first :: tail ∧
      head first (tail ++ rest) = (piece.kind, tail.length) := by
  rcases piece with ⟨kind, text⟩
  cases spells with
  | mention => exact ⟨_, _, rfl, rfl⟩
  | publication => exact ⟨_, _, rfl, rfl⟩
  | quoted absent =>
      refine ⟨_, _, rfl, ?_⟩
      simp [head, Delimited.closing?_append absent rest]
  | openQuoted absent =>
      obtain rfl := stops.eq_nil fun _ => decide_eq_true absent
      exact ⟨_, _, rfl, by simp [head, Delimited.closing?_of_not_mem absent]⟩
  | regexp absent =>
      refine ⟨_, _, rfl, ?_⟩
      simp [head, Delimited.closing?_append absent rest]
  | openRegexp absent =>
      obtain rfl := stops.eq_nil fun _ => decide_eq_true absent
      exact ⟨_, _, rfl, by simp [head, Delimited.closing?_of_not_mem absent]⟩
  | blank firstBlank restBlank =>
      refine ⟨_, _, rfl, ?_⟩
      rw [head_of_isBlank firstBlank, takeWhile_run restBlank stops]
  | word word =>
      rcases exists_cons_of_isWord word with ⟨first, rest, rfl, notSlash, part, parts⟩
      refine ⟨_, _, rfl, ?_⟩
      rw [head_of_isWordPart part notSlash, takeWhile_run parts stops]
  | error control notBlank => exact ⟨_, _, rfl, head_of_isControl control notBlank _⟩

/-- A spelled piece that does not go on is cut off. -/
theorem cut_append_of_spells {piece : Piece Tag} {rest : List Char}
    (spells : Spells piece.kind piece.text) (stops : StartsOutside (goesOn piece) rest) :
    cut head (piece.text ++ rest) = piece :: cut head rest := by
  rcases piece with ⟨kind, text⟩
  rcases head_of_spells spells stops with ⟨first, tail, rfl, found⟩
  rw [List.cons_append, cut_cons, found, List.take_left, List.drop_left]

/-! ## The pieces of a text -/

/-- The first piece of `c :: rest` is spelled, and it does not go on behind itself. -/
structure IsWhole (c : Char) (rest : List Char) (found : Tag × Nat) : Prop where
  spells : Spells found.1 (c :: rest.take found.2)
  stops : StartsOutside (goesOn ⟨found.1, c :: rest.take found.2⟩) (rest.drop found.2)

/-- A delimited piece is closed, or takes all the text. -/
theorem isWhole_delimited {delimiter : Char} {tag : Tag} {rest : List Char}
    (goesOn_eq : ∀ text c, goesOn ⟨tag, text⟩ c = decide (delimiter ∉ text.tail))
    (closed : ∀ inside, delimiter ∉ inside → Spells tag (delimiter :: (inside ++ [delimiter])))
    (opened : ∀ inside, delimiter ∉ inside → Spells tag (delimiter :: inside)) :
    IsWhole delimiter rest
      (tag, (Delimited.closing? delimiter rest).getD rest.length) := by
  by_cases mem : delimiter ∈ rest
  · rcases List.eq_append_cons_of_mem mem with ⟨inside, behind, rfl, absent⟩
    have piece : (inside ++ delimiter :: behind).take (inside.length + 1) =
        inside ++ [delimiter] := by
      rw [List.take_length_add_append, List.take_succ_cons, List.take_zero]
    rw [Delimited.closing?_append absent, Option.getD_some]
    constructor
    · rw [piece]
      exact closed inside absent
    · intro c _
      rw [piece, goesOn_eq]
      simp
  · rw [Delimited.closing?_of_not_mem mem, Option.getD_none]
    constructor
    · rw [List.take_length]
      exact opened rest mem
    · rw [List.drop_length]
      exact startsOutside_nil _

/-- A piece that goes on with the characters of one class takes them all. -/
theorem isWhole_run {c : Char} {tag : Tag} {rest : List Char} {isIn : Char → Bool}
    (goesOn_eq : ∀ text, goesOn ⟨tag, text⟩ = isIn)
    (spells : ∀ run, (∀ c ∈ run, isIn c = true) → Spells tag (c :: run)) :
    IsWhole c rest (tag, (rest.takeWhile isIn).length) := by
  rcases exists_run isIn rest with ⟨run, behind, rfl, all, outside⟩
  rw [takeWhile_run all outside]
  constructor
  · rw [List.take_left]
    exact spells run all
  · rwa [List.drop_left, goesOn_eq]

theorem isWhole_head (c : Char) (rest : List Char) : IsWhole c rest (head c rest) := by
  by_cases delimiter : c = '@' ∨ c = '~' ∨ c = '"' ∨ c = '/'
  · rcases delimiter with rfl | rfl | rfl | rfl
    · exact ⟨.mention, fun _ _ => rfl⟩
    · exact ⟨.publication, fun _ _ => rfl⟩
    · exact isWhole_delimited (fun _ _ => rfl) (fun _ => .quoted) fun _ => .openQuoted
    · exact isWhole_delimited (fun _ _ => rfl) (fun _ => .regexp) fun _ => .openRegexp
  · simp only [not_or] at delimiter
    rcases delimiter with ⟨notMention, notPublication, notQuote, notSlash⟩
    rw [head_of_ne notMention notPublication notQuote notSlash]
    split
    · next blank => exact isWhole_run (fun _ => rfl) fun _ => .blank blank
    · next notBlank =>
      split
      · next control => exact ⟨.error control (by simpa using notBlank), fun _ _ => rfl⟩
      · next notControl =>
        have part : isWordPart c = true := isWordPart_iff.2
          ⟨by simpa using notBlank, by simpa using notControl, notMention, notPublication,
            notQuote⟩
        refine isWhole_run (fun _ => rfl) fun run parts => .word ?_
        simpa [isWord, part, notSlash] using parts

/-- Every piece of a text is spelled. -/
theorem spells_of_mem_cut {text : List Char} {piece : Piece Tag}
    (mem : piece ∈ cut head text) : Spells piece.kind piece.text := by
  rcases exists_head_of_mem_cut mem with ⟨c, rest, rfl⟩
  exact (isWhole_head c rest).spells

/-- No piece of a text goes on in the next one. -/
theorem isChain_cut (text : List Char) :
    (cut head text).IsChain fun piece next => StartsOutside (goesOn piece) next.text := by
  fun_induction cut head text with
  | case1 => exact .nil
  | case2 c rest ih =>
      refine List.isChain_cons.2 ⟨?_, ih⟩
      intro next mem
      rcases List.head?_eq_some_iff.1 mem with ⟨pieces, found⟩
      rcases exists_of_cut_eq_cons found with ⟨d, behind, split, rfl, -⟩
      have stops := (isWhole_head c rest).stops
      rw [split, startsOutside_cons_iff] at stops
      exact startsOutside_cons_iff.2 stops

/-! ## Pieces side by side -/

/-- Every piece is spelled, and none goes on in what follows it; `rest` follows the last one. -/
def Separated : List (Piece Tag) → List Char → Prop
  | [], _ => True
  | piece :: pieces, rest =>
      Spells piece.kind piece.text ∧
        StartsOutside (goesOn piece) (pieces.flatMap Piece.text ++ rest) ∧ Separated pieces rest

theorem separated_append_iff {first second : List (Piece Tag)} {rest : List Char} :
    Separated (first ++ second) rest ↔
      Separated first (second.flatMap Piece.text ++ rest) ∧ Separated second rest := by
  induction first with
  | nil => simp [Separated]
  | cons piece first ih => simp [Separated, ih, and_assoc]

/-- Separated pieces are the first pieces of their text. -/
theorem cut_of_separated {pieces : List (Piece Tag)} {rest : List Char}
    (separated : Separated pieces rest) :
    cut head (pieces.flatMap Piece.text ++ rest) = pieces ++ cut head rest := by
  induction pieces with
  | nil => rfl
  | cons piece pieces ih =>
      rcases separated with ⟨spells, stops, later⟩
      rw [List.flatMap_cons, List.append_assoc, cut_append_of_spells spells stops, ih later,
        List.cons_append]

/-! ## Tokens -/

/-- A token without its place. -/
def pieceOf (token : Token Tag) : Piece Tag :=
  ⟨token.tag, token.lexeme.toList⟩

/-- The tokens of a text without their places are its pieces. -/
theorem map_pieceOf_tokens (text : String) :
    (tokens text).map pieceOf = cut head text.toList := by
  calc
    (tokens text).map pieceOf = (locate 0 (cut head text.toList)).map Prod.snd := by
      rw [tokens, tokensFrom, List.map_map]
      apply List.map_congr_left
      rintro ⟨position, kind, text⟩ -
      simp [pieceOf, Token.ofText]
    _ = cut head text.toList := map_snd_locate 0 _

end SearchQuery.Search
