import Mathlib.Data.List.Chain
import SearchQuery.Proofs.Scan.Longest

/-!
# The longest-match decomposition

Every tag has a class of texts (`Tag.Admits`).  A cut of a query by longest match has words of
these classes only, and no word goes on in the next one (`IsLongestCut`).  A query has one such
cut at most (`IsLongestCut.unique`).  It has one exactly if no piece of its scan is a fault, and
then the scan gives the words of the cut, each at its place in bytes
(`scan_eq_ok_iff_isLongestCut`).
-/

namespace SearchQuery.Query

open Text

/-! ## Classes of texts -/

/-- The texts of the class that a tag stands for. -/
def Tag.Admits (tag : Tag) (text : List Char) : Prop :=
  match tag with
  | .openParen => text = ['(']
  | .closeParen => text = [')']
  | .comparison sign => text = sign.symbol.toList
  | .connective word => text = word.word.toList
  | .blank => text ≠ [] ∧ ∀ c ∈ text, isBlank c = true
  | .field =>
      isWord (String.ofList text) = true ∧
        String.ofList text ∉ ["and", "or", "true", "false", "null"]
  | .literal .null => text = "null".toList
  | .literal .bool => text = "true".toList ∨ text = "false".toList
  | .literal .int =>
      ∃ first digits, text = first :: digits ∧ (first.isDigit || first == '-') = true ∧
        ∀ c ∈ digits, c.isDigit = true
  | .literal .float =>
      ∃ first whole places, text = first :: (whole ++ '.' :: places) ∧
        (first.isDigit || first == '-') = true ∧ (∀ c ∈ whole, c.isDigit = true) ∧
        ∀ c ∈ places, c.isDigit = true
  | .literal .string => ∃ inside, '"' ∉ inside ∧ text = '"' :: (inside ++ ['"'])
  | .literal .regexp => ∃ inside, '/' ∉ inside ∧ text = '/' :: (inside ++ ['/'])
  | .eof => False
  | .error => False

/-- A word is of the class of its tag. -/
theorem admits_ofWord {word : String} (isWord : isWord word = true) :
    (Tag.ofWord word).Admits word.toList := by
  unfold Tag.ofWord
  split
  · exact rfl
  · exact rfl
  · exact .inl rfl
  · exact .inr rfl
  · exact rfl
  · simp_all [Tag.Admits]

theorem Spells.admits {tag : Tag} {text : List Char} (spells : Spells tag text) :
    tag.Admits text := by
  cases spells with
  | openParen => exact rfl
  | closeParen => exact rfl
  | comparison sign => exact rfl
  | blank firstBlank restBlank =>
      exact ⟨List.cons_ne_nil _ _, List.forall_mem_cons.2 ⟨firstBlank, restBlank⟩⟩
  | @word first rest starts parts =>
      have word : isWord (String.ofList (first :: rest)) = true := by
        simp only [isWord, String.toList_ofList, starts, Bool.true_and]
        exact List.all_eq_true.2 parts
      simpa using admits_ofWord word
  | int starts digits => exact ⟨_, _, rfl, starts, digits⟩
  | float starts wholeDigits placesDigits =>
      exact ⟨_, _, _, rfl, starts, wholeDigits, placesDigits⟩
  | string absent => exact ⟨_, absent, rfl⟩
  | regexp absent => exact ⟨_, absent, rfl⟩

/-- The classes are those of the texts that spell a tag. -/
theorem spells_iff_admits {tag : Tag} {text : List Char} : Spells tag text ↔ tag.Admits text := by
  refine ⟨Spells.admits, fun admits => ?_⟩
  have reserved (word : String) (isWord : isWord word = true) (same : text = word.toList) :
      Spells (.ofWord word) text := same ▸ spells_of_isWord isWord
  cases tag with
  | eof => cases admits
  | error => cases admits
  | openParen =>
      obtain rfl := admits
      exact .openParen
  | closeParen =>
      obtain rfl := admits
      exact .closeParen
  | comparison sign =>
      obtain rfl := admits
      exact .comparison sign
  | connective word =>
      cases word with
      | and => exact reserved "and" rfl admits
      | or => exact reserved "or" rfl admits
  | blank =>
      obtain ⟨first, rest, rfl⟩ := List.exists_cons_of_ne_nil admits.1
      rcases List.forall_mem_cons.1 admits.2 with ⟨firstBlank, restBlank⟩
      exact .blank firstBlank restBlank
  | field =>
      rcases admits with ⟨word, notReserved⟩
      have tag_eq := Tag.ofWord_eq_field_iff.2 notReserved
      simpa [tag_eq] using spells_of_isWord word
  | literal kind =>
      cases kind with
      | null => exact reserved "null" rfl admits
      | bool =>
          rcases admits with isTrue | isFalse
          · exact reserved "true" rfl isTrue
          · exact reserved "false" rfl isFalse
      | int =>
          rcases admits with ⟨first, digits, rfl, starts, all⟩
          exact .int starts all
      | float =>
          rcases admits with ⟨first, whole, places, rfl, starts, wholeDigits, placesDigits⟩
          exact .float starts wholeDigits placesDigits
      | string =>
          rcases admits with ⟨inside, absent, rfl⟩
          exact .string absent
      | regexp =>
          rcases admits with ⟨inside, absent, rfl⟩
          exact .regexp absent

/-! ## The scan takes all that a piece goes on with -/

/-- A first piece of `c :: rest` that is no fault does not go on behind itself. -/
def IsStopped (c : Char) (rest : List Char) (found : Head) : Prop :=
  ∀ shape, found.1 = .ok shape →
    StartsOutside (shape.tag (c :: rest.take found.2)).goesOn (rest.drop found.2)

section Stopped

variable {c : Char} {rest : List Char}

theorem isStopped_error (fault : Fault) (length : Nat) :
    IsStopped c rest (.error fault, length) := by
  intro shape found
  cases found

theorem isStopped_plain {tag : Tag} {length : Nat}
    (stops : StartsOutside tag.goesOn (rest.drop length)) :
    IsStopped c rest (.ok (.plain tag), length) := by
  intro shape found
  cases found
  exact stops

/-- A token that never goes on. -/
theorem isStopped_closed {tag : Tag} (closed : ∀ c, tag.goesOn c = false) (length : Nat) :
    IsStopped c rest (.ok (.plain tag), length) :=
  isStopped_plain fun c _ => closed c

/-- A sign of comparison that goes on with an equals sign, if at all. -/
theorem isStopped_beforeEquals {alone : Except Fault Shape} {joined : Comparison}
    (stoppedAlone : StartsOutside (· == '=') rest → IsStopped c rest (alone, 0))
    (closed : ∀ c, (Tag.comparison joined).goesOn c = false) :
    IsStopped c rest (beforeEquals rest alone (.ok (.plain (.comparison joined)))) := by
  cases rest with
  | nil => exact stoppedAlone (startsOutside_nil _)
  | cons next rest =>
      rw [beforeEquals_cons]
      split
      · exact isStopped_closed closed _
      · next other => exact stoppedAlone (startsOutside_cons_iff.2 (by simpa using other))

theorem isStopped_delimited {delimiter : Char} {kind : LiteralKind} {fault : Fault}
    (closed : ∀ c, (Tag.literal kind).goesOn c = false) :
    IsStopped c rest (delimited delimiter kind fault rest) := by
  unfold delimited
  split
  · exact isStopped_closed closed _
  · exact isStopped_error fault _

/-- Behind a whole run of a class stands no character of the class. -/
theorem startsOutside_drop_takeWhile (isIn : Char → Bool) (rest : List Char) :
    StartsOutside isIn (rest.drop (rest.takeWhile isIn).length) := by
  rcases exists_run isIn rest with ⟨run, behind, rfl, all, outside⟩
  rwa [takeWhile_run all outside, List.drop_left]

theorem isStopped_number : IsStopped c rest (number rest) := by
  rcases exists_run Char.isDigit rest with ⟨whole, behind, rfl, digits, outside⟩
  by_cases point : behind.head? = some '.'
  · rcases List.head?_eq_some_iff.1 point with ⟨places, rfl⟩
    rcases exists_run Char.isDigit places with ⟨places, behind, rfl, placesDigits, outside⟩
    have split : whole ++ '.' :: (places ++ behind) = (whole ++ '.' :: places) ++ behind := by
      rw [List.append_assoc, List.cons_append]
    rw [split, number_float digits placesDigits outside]
    apply isStopped_plain
    rwa [List.drop_left]
  · have noPoint : StartsOutside (fun c => c.isDigit || c == '.') behind := by
      intro d mem
      have other : d ≠ '.' := by
        rintro rfl
        exact point mem
      simp [outside d mem, other]
    rw [number_int digits noPoint]
    apply isStopped_plain
    rwa [List.drop_left]

/-- No first piece goes on behind itself. -/
theorem isStopped_head (c : Char) (rest : List Char) : IsStopped c rest (head c rest) := by
  have single {tag : Tag} (closed : ∀ c, tag.goesOn c = false) :
      IsStopped c rest (.ok (.plain tag), 0) := isStopped_closed closed 0
  have sign {sign : Comparison} (goesOn_eq : (Tag.comparison sign).goesOn = (· == '='))
      (stops : StartsOutside (· == '=') rest) :
      IsStopped c rest (.ok (.plain (.comparison sign)), 0) := by
    rw [← goesOn_eq] at stops
    exact isStopped_plain stops
  have blanks : StartsOutside Tag.blank.goesOn (rest.drop (rest.takeWhile isBlank).length) :=
    startsOutside_drop_takeWhile isBlank rest
  apply head_cases (motive := fun answer => IsStopped c rest (answer rest)) c
  case openParen | closeParen | equal => exact fun _ => single fun _ => rfl
  case notEqual => exact fun _ => isStopped_beforeEquals (fun _ => isStopped_error _ _) fun _ => rfl
  case fuzzy | greater | less => exact fun _ => isStopped_beforeEquals (sign rfl) fun _ => rfl
  case string | regexp => exact fun _ => isStopped_delimited fun _ => rfl
  case blank => exact fun _ => isStopped_plain blanks
  case word =>
    rintro - shape found
    cases found
    rw [Shape.tag, Tag.goesOn_ofWord]
    exact startsOutside_drop_takeWhile isWordPart rest
  case number => exact fun _ => isStopped_number
  case unknown => exact fun _ _ _ => isStopped_error _ _

end Stopped

theorem Word.textOf_map_ofPiece (pieces : List (Piece (Except Fault Shape))) :
    textOf (pieces.map ofPiece) = pieces.flatMap Piece.text := by
  rw [textOf, List.flatMap_map]
  simp [ofPiece]

/-- The words of a text without faults do not run together. -/
theorem Word.separated_map_ofPiece_cut {text : List Char}
    (faultless : ∀ piece ∈ cut head text, pieceTag piece ≠ .error) :
    Separated ((cut head text).map ofPiece) [] := by
  fun_induction cut head text with
  | case1 => trivial
  | case2 c rest ih =>
      rcases List.forall_mem_cons.1 faultless with ⟨here, later⟩
      have behind : Word.textOf ((cut head (rest.drop (head c rest).2)).map ofPiece) =
          rest.drop (head c rest).2 := by
        rw [Word.textOf_map_ofPiece, flatMap_text_cut]
      cases found : (head c rest).1 with
      | error fault => exact absurd (by rw [pieceTag, found]) here
      | ok shape =>
          have tag_eq : pieceTag ⟨.ok shape, c :: rest.take (head c rest).2⟩ =
              shape.tag (c :: rest.take (head c rest).2) := rfl
          have spells := isSpelled_head c rest shape found
          have stops := isStopped_head c rest shape found
          refine ⟨?_, ?_, ih later⟩
          · simpa [ofPiece, tag_eq] using spells
          · rw [behind, List.append_nil]
            exact stops

/-! ## The cut of a query -/

/-- The words are a cut of the query by longest match: put together they are the query, each is
of the class of its tag, and none goes on in the next one. -/
structure IsLongestCut (query : String) (words : List Word) : Prop where
  text : Word.textOf words = query.toList
  admits : ∀ word ∈ words, word.tag.Admits word.lexeme.toList
  stops : words.IsChain fun word next => StartsOutside word.tag.goesOn next.lexeme.toList

theorem Spells.ne_nil {tag : Tag} {text : List Char} (spells : Spells tag text) : text ≠ [] := by
  obtain ⟨first, tail, -, rfl, -, -⟩ := head_of_spells spells (startsOutside_nil _)
  exact List.cons_ne_nil first tail

namespace Word

variable {words : List Word}

/-- Whether words run together is seen at the neighbours. -/
theorem separated_nil_iff :
    Separated words [] ↔ (∀ word ∈ words, Spells word.tag word.lexeme.toList) ∧
      words.IsChain fun word next => StartsOutside word.tag.goesOn next.lexeme.toList := by
  induction words with
  | nil => simp [Separated]
  | cons word words ih =>
      rw [Separated, ih, List.forall_mem_cons, List.isChain_cons, List.append_nil]
      -- the text behind a word begins as the next word does, since no spelled word is empty
      have behind (spells : ∀ word ∈ words, Spells word.tag word.lexeme.toList) :
          StartsOutside word.tag.goesOn (textOf words) ↔
            ∀ next ∈ words.head?, StartsOutside word.tag.goesOn next.lexeme.toList := by
        cases words with
        | nil => simp [StartsOutside]
        | cons next words =>
            obtain ⟨first, tail, text_eq⟩ :=
              List.exists_cons_of_ne_nil (spells next List.mem_cons_self).ne_nil
            simp [text_eq]
      constructor
      · rintro ⟨here, stops, spells, chain⟩
        exact ⟨⟨here, spells⟩, (behind spells).1 stops, chain⟩
      · rintro ⟨⟨here, spells⟩, stops, chain⟩
        exact ⟨here, (behind spells).2 stops, spells, chain⟩

/-- Words side by side as tokens, the first at `start`. -/
def place (start : Nat) : List Word → List (Token Tag)
  | [] => []
  | word :: words =>
      ⟨word.tag, word.lexeme, ⟨start, start + word.lexeme.utf8ByteSize⟩⟩ ::
        place (start + word.lexeme.utf8ByteSize) words

theorem textOf_place (start : Nat) (words : List Word) :
    Token.textOf (place start words) = textOf words := by
  induction words generalizing start with
  | nil => rfl
  | cons word words ih => rw [place, Token.textOf_cons, ih, textOf_cons]

theorem placed_place (start : Nat) (nonempty : ∀ word ∈ words, word.lexeme.toList ≠ []) :
    Token.Placed start (place start words) := by
  induction words generalizing start with
  | nil => trivial
  | cons word words ih =>
      rcases List.forall_mem_cons.1 nonempty with ⟨here, later⟩
      rw [place, Token.Placed, width_toList]
      exact ⟨here, rfl, ih _ later⟩

@[simp]
theorem map_ofToken_place (start : Nat) (words : List Word) :
    (place start words).map ofToken = words := by
  induction words generalizing start with
  | nil => rfl
  | cons word words ih => rw [place, List.map_cons, ih, ofToken]

/-- The tokens of pieces at their places are the words of the pieces at their places. -/
theorem place_map_ofPiece (start : Nat) (pieces : List (Piece (Except Fault Shape))) :
    ((locate start pieces).map fun entry =>
      (Token.ofText (pieceTag entry.2) entry.1 entry.2.text : Token Tag)) =
        place start (pieces.map ofPiece) := by
  induction pieces generalizing start with
  | nil => rfl
  | cons piece pieces ih =>
      have bytes : (ofPiece piece).lexeme.utf8ByteSize = width piece.text := by
        rw [← width_toList, ofPiece, String.toList_ofList]
      rw [locate_cons, List.map_cons, ih, List.map_cons, place, bytes]
      rfl

end Word

section Cut

variable {query : String} {words others : List Word}

theorem isLongestCut_iff_separated :
    IsLongestCut query words ↔ Word.textOf words = query.toList ∧ Word.Separated words [] := by
  rw [Word.separated_nil_iff]
  simp only [spells_iff_admits]
  exact ⟨fun cut => ⟨cut.text, cut.admits, cut.stops⟩, fun cut => ⟨cut.1, cut.2.1, cut.2.2⟩⟩

/-- The words of a cut by longest match are the words of the pieces of the scan. -/
theorem IsLongestCut.map_ofPiece_cut (isCut : IsLongestCut query words) :
    (cut head query.toList).map Word.ofPiece = words := by
  rcases isLongestCut_iff_separated.1 isCut with ⟨text, separated⟩
  have pieces := Word.map_ofPiece_cut separated
  rwa [List.append_nil, text, cut_nil, List.map_nil, List.append_nil] at pieces

/-- A query has one cut by longest match at most. -/
theorem IsLongestCut.unique (isCut : IsLongestCut query words)
    (other : IsLongestCut query others) : words = others := by
  rw [← isCut.map_ofPiece_cut, other.map_ofPiece_cut]

/-- The pieces of the scan are a cut by longest match if none of them is a fault. -/
theorem isLongestCut_map_ofPiece_cut
    (faultless : ∀ piece ∈ cut head query.toList, pieceTag piece ≠ .error) :
    IsLongestCut query ((cut head query.toList).map Word.ofPiece) := by
  refine isLongestCut_iff_separated.2 ⟨?_, Word.separated_map_ofPiece_cut faultless⟩
  rw [Word.textOf_map_ofPiece, flatMap_text_cut]

theorem map_token_lexemes_eq_place (query : String) :
    (lexemes query).map Lexeme.token =
      Word.place 0 ((cut head query.toList).map Word.ofPiece) := by
  rw [lexemes, map_token_lexemesFrom, Word.place_map_ofPiece]

/-- The tokens of a query have no faults exactly if its pieces have none. -/
theorem forall_error_eq_none_iff :
    (∀ lexeme ∈ lexemes query, lexeme.error = none) ↔
      ∀ piece ∈ cut head query.toList, pieceTag piece ≠ .error := by
  calc
    (∀ lexeme ∈ lexemes query, lexeme.error = none)
        ↔ ∀ word ∈ ((lexemes query).map Lexeme.token).map Word.ofToken, word.tag ≠ .error := by
      rw [List.forall_mem_map, List.forall_mem_map]
      exact forall₂_congr fun lexeme mem => error_eq_none_iff_of_mem mem
    _ ↔ ∀ piece ∈ cut head query.toList, pieceTag piece ≠ .error := by
      rw [map_ofToken_lexemes, List.forall_mem_map]
      rfl

/-- A query has tokens exactly if it has a cut by longest match, and then the tokens are the words
of the cut at their places. -/
theorem tokens_eq_ok_iff_isLongestCut {scanned : List (Token Tag)} :
    tokens query = .ok scanned ↔
      ∃ words, IsLongestCut query words ∧ scanned = Word.place 0 words := by
  rw [tokens_eq_ok_iff, forall_error_eq_none_iff, map_token_lexemes_eq_place]
  constructor
  · rintro ⟨faultless, rfl⟩
    exact ⟨_, isLongestCut_map_ofPiece_cut faultless, rfl⟩
  · rintro ⟨words, isCut, rfl⟩
    have pieces := isCut.map_ofPiece_cut
    refine ⟨?_, by rw [pieces]⟩
    intro piece mem
    have separated := (isLongestCut_iff_separated.1 isCut).2
    rw [← pieces] at separated
    exact Word.tag_ne_error separated (.ofPiece piece) (List.mem_map_of_mem mem)

/-- The strict scan gives the tokens with the mark behind them. -/
theorem scan_eq_ok_iff_tokens {scanned : List (Token Tag)} :
    scan query = .ok scanned ↔
      ∃ found, tokens query = .ok found ∧ scanned = found ++ [endMark query] := by
  rw [scan]
  cases tokens query <;> simp [Except.map, eq_comm]

/-- The words of a cut stand side by side, each at the place of its text in bytes. -/
theorem IsLongestCut.place (isCut : IsLongestCut query words) :
    Tiles 0 ((Word.place 0 words).map Token.span) query.utf8ByteSize ∧
      ∀ token ∈ Word.place 0 words, ∃ before behind, query = before ++ token.lexeme ++ behind ∧
        token.span = ⟨before.utf8ByteSize, (before ++ token.lexeme).utf8ByteSize⟩ := by
  have text : Token.textOf (Word.place 0 words) = query.toList := by
    rw [Word.textOf_place, isCut.text]
  have placed : Token.Placed 0 (Word.place 0 words) := by
    apply Word.placed_place
    intro word mem
    exact (spells_iff_admits.2 (isCut.admits word mem)).ne_nil
  constructor
  · simpa [text, width_toList] using placed.tiles
  · intro token mem
    exact placed.exists_span_eq text mem

/-- The strict scan of a query succeeds exactly if the query has a cut by longest match, and then
it gives the words of the cut at their places, with an empty mark at the end.  There is one such
cut at most.  Its words leave no gap, and each one starts and stops between two characters of the
query, at as many bytes as stand in front of it and behind its start. -/
theorem scan_eq_ok_iff_isLongestCut (query : String) :
    (∀ scanned, scan query = .ok scanned ↔
      ∃ words, IsLongestCut query words ∧ scanned = Word.place 0 words ++
        [⟨.eof, "", ⟨query.utf8ByteSize, query.utf8ByteSize⟩⟩]) ∧
      (∀ words others, IsLongestCut query words → IsLongestCut query others → words = others) ∧
      ∀ words, IsLongestCut query words →
        Tiles 0 ((Word.place 0 words).map Token.span) query.utf8ByteSize ∧
        ∀ token ∈ Word.place 0 words, ∃ before behind,
          query = before ++ token.lexeme ++ behind ∧
            token.span = ⟨before.utf8ByteSize, (before ++ token.lexeme).utf8ByteSize⟩ := by
  have mark : endMark query = ⟨.eof, "", ⟨query.utf8ByteSize, query.utf8ByteSize⟩⟩ := by
    rw [endMark, width_toList]
    rfl
  refine ⟨?_, fun words others isCut other => isCut.unique other, fun words isCut => isCut.place⟩
  intro scanned
  rw [scan_eq_ok_iff_tokens, ← mark]
  constructor
  · rintro ⟨found, scans, rfl⟩
    obtain ⟨words, isCut, rfl⟩ := tokens_eq_ok_iff_isLongestCut.1 scans
    exact ⟨words, isCut, rfl⟩
  · rintro ⟨words, isCut, rfl⟩
    exact ⟨_, tokens_eq_ok_iff_isLongestCut.2 ⟨words, isCut, rfl⟩, rfl⟩

/-- The letter `é` is two bytes wide; `a<="é"` has a cut, and `1.2.3` has none. -/
theorem isLongestCut_wide_string :
    let words : List Word := [⟨.field, "a"⟩, ⟨.comparison .atMost, "<="⟩,
      ⟨.literal .string, "\"é\""⟩]
    let scanned : List (Token Tag) :=
      [⟨.field, "a", ⟨0, 1⟩⟩, ⟨.comparison .atMost, "<=", ⟨1, 3⟩⟩,
        ⟨.literal .string, "\"é\"", ⟨3, 7⟩⟩, ⟨.eof, "", ⟨7, 7⟩⟩]
    scan "a<=\"é\"" = .ok scanned ∧ IsLongestCut "a<=\"é\"" words ∧
      Tiles 0 ((Word.place 0 words).map Token.span) 7 ∧
      scan "1.2.3" = .error (.unknownEntity '.' 3) ∧ ¬ ∃ words, IsLongestCut "1.2.3" words := by
  intro words scanned
  have scans : scan "a<=\"é\"" = .ok scanned := by decide +kernel
  have fails : scan "1.2.3" = .error (.unknownEntity '.' 3) := by decide +kernel
  obtain ⟨found, isCut, same⟩ := ((scan_eq_ok_iff_isLongestCut _).1 _).1 scans
  obtain rfl : words = found := by
    have marked := congrArg (List.map Word.ofToken) same
    rw [List.map_append, Word.map_ofToken_place] at marked
    have marked : words ++ [⟨.eof, ""⟩] = found ++ [⟨.eof, ""⟩] := marked
    exact List.append_cancel_right marked
  refine ⟨scans, isCut, ((scan_eq_ok_iff_isLongestCut _).2.2 _ isCut).1, fails, ?_⟩
  rintro ⟨other, otherCut⟩
  have succeeds := ((scan_eq_ok_iff_isLongestCut _).1 _).2 ⟨other, otherCut, rfl⟩
  rw [fails] at succeeds
  cases succeeds

end Cut

end SearchQuery.Query
