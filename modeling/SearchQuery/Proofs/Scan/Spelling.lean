import SearchQuery.Proofs.Scan.Lexeme
import SearchQuery.Proofs.Text.Extent

/-!
# Spelling a token

Every tag has a class of texts that spell it (`Spells`), and a token goes on with the
characters that would belong to it (`Tag.goesOn`).  A spelled text whose token does not go
on in what follows is the first piece of the whole, whatever that is
(`cut_append_of_spells`).  So words that do not run together are found again by the scan,
one token for each word (`exists_tokens_of_separated`).
-/

namespace SearchQuery.Query

open Text

/-- The texts that spell a token, by its tag. -/
inductive Spells : Tag → List Char → Prop
  | openParen : Spells .openParen ['(']
  | closeParen : Spells .closeParen [')']
  | comparison (sign : Comparison) : Spells (.comparison sign) sign.symbol.toList
  | blank {first : Char} {rest : List Char} (firstBlank : isBlank first = true)
      (restBlank : ∀ c ∈ rest, isBlank c = true) : Spells .blank (first :: rest)
  | word {first : Char} {rest : List Char} (starts : isWordStart first = true)
      (parts : ∀ c ∈ rest, isWordPart c = true) :
      Spells (.ofWord (String.ofList (first :: rest))) (first :: rest)
  | int {first : Char} {rest : List Char} (starts : (first.isDigit || first == '-') = true)
      (digits : ∀ c ∈ rest, c.isDigit = true) : Spells (.literal .int) (first :: rest)
  | float {first : Char} {whole places : List Char}
      (starts : (first.isDigit || first == '-') = true)
      (wholeDigits : ∀ c ∈ whole, c.isDigit = true)
      (placesDigits : ∀ c ∈ places, c.isDigit = true) :
      Spells (.literal .float) (first :: (whole ++ '.' :: places))
  | string {inside : List Char} (absent : '"' ∉ inside) :
      Spells (.literal .string) ('"' :: (inside ++ ['"']))
  | regexp {inside : List Char} (absent : '/' ∉ inside) :
      Spells (.literal .regexp) ('/' :: (inside ++ ['/']))

/-- Whether the text is one word, reserved or not. -/
def isWord (text : String) : Bool :=
  match text.toList with
  | [] => false
  | first :: rest => isWordStart first && rest.all isWordPart

theorem exists_cons_of_isWord {text : String} (word : isWord text = true) :
    ∃ first rest, text.toList = first :: rest ∧ isWordStart first = true ∧
      ∀ c ∈ rest, isWordPart c = true := by
  unfold isWord at word
  split at word
  · cases word
  · next first rest text_eq =>
      rcases Bool.and_eq_true_iff.1 word with ⟨starts, parts⟩
      exact ⟨first, rest, text_eq, starts, List.all_eq_true.1 parts⟩

/-- A word spells the tag that it has by itself. -/
theorem spells_of_isWord {text : String} (word : isWord text = true) :
    Spells (.ofWord text) text.toList := by
  rcases exists_cons_of_isWord word with ⟨first, rest, text_eq, starts, parts⟩
  have spells := Spells.word starts parts
  rwa [← text_eq, String.ofList_toList] at spells

/-- Whether a token with this tag goes on with the character. -/
def Tag.goesOn : Tag → Char → Bool
  | comparison .fuzzy => (· == '=')
  | comparison .less => (· == '=')
  | comparison .greater => (· == '=')
  | blank => isBlank
  | connective _ => isWordPart
  | field => isWordPart
  | literal .null => isWordPart
  | literal .bool => isWordPart
  | literal .int => fun c => c.isDigit || c == '.'
  | literal .float => Char.isDigit
  | _ => fun _ => false

namespace Tag

/-- A word goes on with the characters of words, reserved or not. -/
theorem goesOn_ofWord (word : String) : (ofWord word).goesOn = isWordPart := by
  unfold ofWord
  split <;> rfl

/-- No word has a tag that does not go on with a letter. -/
theorem ofWord_ne {tag : Tag} (stops : tag.goesOn 'a' = false) (word : String) :
    ofWord word ≠ tag := by
  rintro rfl
  rw [goesOn_ofWord] at stops
  cases stops

/-- A word names a field exactly if it is not reserved. -/
theorem ofWord_eq_field_iff {word : String} :
    ofWord word = field ↔ word ∉ ["and", "or", "true", "false", "null"] := by
  unfold ofWord
  split <;> simp_all

/-- No token but a blank one goes on with a space. -/
theorem goesOn_space {tag : Tag} (notBlank : tag ≠ .blank) : tag.goesOn ' ' = false := by
  cases tag with
  | blank => exact absurd rfl notBlank
  | comparison sign => cases sign <;> rfl
  | literal kind => cases kind <;> rfl
  | _ => rfl

/-- A closing parenthesis ends every token. -/
theorem goesOn_closeParen (tag : Tag) : tag.goesOn ')' = false := by
  cases tag with
  | comparison sign => cases sign <;> rfl
  | literal kind => cases kind <;> rfl
  | _ => rfl

end Tag

/-! ## The first piece -/

/-- The characters that are looked for one by one. -/
def signs : List Char :=
  ['(', ')', '=', '!', '~', '>', '<', '"', '/']

/-- A character of a class without signs is no sign. -/
theorem not_mem_signs {isIn : Char → Bool} {c : Char} (mem : isIn c = true)
    (without : signs.all (!isIn ·) = true) : c ∉ signs := by
  intro sign
  have outside := List.all_eq_true.1 without c sign
  simp [mem] at outside

/-- The first piece of a text that does not begin with a sign. -/
theorem head_of_not_mem_signs {c : Char} (other : c ∉ signs) (rest : List Char) :
    head c rest =
      if isBlank c then (.ok (.plain .blank), (rest.takeWhile isBlank).length)
      else if isWordStart c then (.ok .word, (rest.takeWhile isWordPart).length)
      else if c.isDigit || c == '-' then number rest
      else (.error (.unknownEntity c), 0) := by
  simp only [signs, List.mem_cons, List.not_mem_nil, or_false, not_or] at other
  rcases other with ⟨h1, h2, h3, h4, h5, h6, h7, h8, h9⟩
  rw [head, if_neg h1, if_neg h2, if_neg h3, if_neg h4, if_neg h5, if_neg h6, if_neg h7,
    if_neg h8, if_neg h9]

theorem toNat_of_isBlank {c : Char} (blank : isBlank c = true) :
    c.toNat ≤ 32 ∨ 133 ≤ c.toNat := by
  simp [isBlank, Char.le_def, UInt32.le_iff_toNat_le, ← Char.toNat_inj] at blank
  omega

theorem toNat_of_isWordStart {c : Char} (starts : isWordStart c = true) :
    65 ≤ c.toNat ∧ c.toNat ≤ 122 := by
  rcases Bool.or_eq_true_iff.1 starts with alpha | underscore
  · rcases Bool.or_eq_true_iff.1 alpha with upper | lower
    · rcases of_decide_eq_true upper with ⟨low, high⟩
      have low : 65 ≤ c.toNat := UInt32.le_iff_toNat_le.1 low
      have high : c.toNat ≤ 90 := UInt32.le_iff_toNat_le.1 high
      omega
    · rcases Bool.and_eq_true_iff.1 lower with ⟨low, high⟩
      have low : 97 ≤ c.toNat := UInt32.le_iff_toNat_le.1 (of_decide_eq_true low)
      have high : c.toNat ≤ 122 := UInt32.le_iff_toNat_le.1 (of_decide_eq_true high)
      omega
  · rw [beq_iff_eq.1 underscore]
    decide

theorem toNat_of_isDigit_or_minus {c : Char} (starts : (c.isDigit || c == '-') = true) :
    45 ≤ c.toNat ∧ c.toNat ≤ 57 := by
  simp [Char.isDigit, UInt32.le_iff_toNat_le, ← Char.toNat_inj] at starts
  omega

/-- No word begins with a blank character. -/
theorem isBlank_of_isWordStart {c : Char} (starts : isWordStart c = true) :
    isBlank c = false := by
  apply Bool.eq_false_iff.2
  intro blank
  have low := toNat_of_isBlank blank
  have high := toNat_of_isWordStart starts
  omega

theorem head_of_isBlank {c : Char} (blank : isBlank c = true) (rest : List Char) :
    head c rest = (.ok (.plain .blank), (rest.takeWhile isBlank).length) := by
  rw [head_of_not_mem_signs (not_mem_signs blank rfl), if_pos blank]

theorem head_of_isWordStart {c : Char} (starts : isWordStart c = true) (rest : List Char) :
    head c rest = (.ok .word, (rest.takeWhile isWordPart).length) := by
  have notBlank : ¬ isBlank c = true := by simp [isBlank_of_isWordStart starts]
  rw [head_of_not_mem_signs (not_mem_signs starts rfl), if_neg notBlank, if_pos starts]

theorem head_of_isDigit_or_minus {c : Char} (starts : (c.isDigit || c == '-') = true)
    (rest : List Char) : head c rest = number rest := by
  have bounds := toNat_of_isDigit_or_minus starts
  have notBlank : ¬ isBlank c = true := by
    intro blank
    have low := toNat_of_isBlank blank
    omega
  have noWord : ¬ isWordStart c = true := by
    intro word
    have high := toNat_of_isWordStart word
    omega
  have other : c ∉ signs := @not_mem_signs (fun c => c.isDigit || c == '-') c starts rfl
  rw [head_of_not_mem_signs other, if_neg notBlank, if_neg noWord, if_pos starts]

theorem beforeEquals_of_startsOutside {rest : List Char} (outside : StartsOutside (· == '=') rest)
    (alone joined : Except Fault Shape) : beforeEquals rest alone joined = (alone, 0) := by
  cases rest with
  | nil => rfl
  | cons c rest =>
      unfold beforeEquals
      split
      · next eq =>
          cases eq
          simp at outside
      · rfl

theorem number_int {digits rest : List Char} (all : ∀ c ∈ digits, c.isDigit = true)
    (outside : StartsOutside (fun c => c.isDigit || c == '.') rest) :
    number (digits ++ rest) = (.ok (.plain (.literal .int)), digits.length) := by
  have noDigit : StartsOutside Char.isDigit rest := by
    intro c mem
    exact (Bool.or_eq_false_iff.1 (outside c mem)).1
  simp only [number, takeWhile_run all noDigit, dropWhile_run all noDigit]
  split
  · simp at outside
  · rfl

theorem number_float {whole places rest : List Char} (wholeDigits : ∀ c ∈ whole, c.isDigit = true)
    (placesDigits : ∀ c ∈ places, c.isDigit = true) (outside : StartsOutside Char.isDigit rest) :
    number (whole ++ '.' :: places ++ rest) =
      (.ok (.plain (.literal .float)), (whole ++ '.' :: places).length) := by
  have point : StartsOutside Char.isDigit ('.' :: (places ++ rest)) := by simp
  rw [List.append_assoc, List.cons_append]
  simp only [number, takeWhile_run wholeDigits point, dropWhile_run wholeDigits point,
    takeWhile_run placesDigits outside, List.length_append, List.length_cons, Prod.mk.injEq,
    true_and]
  omega

/-- The first piece of a text that begins with a spelled token, if the token does not go
on behind it. -/
theorem head_of_spells {tag : Tag} {text rest : List Char} (spells : Spells tag text)
    (stops : StartsOutside tag.goesOn rest) :
    ∃ first tail shape, text = first :: tail ∧ shape.tag text = tag ∧
      head first (tail ++ rest) = (.ok shape, tail.length) := by
  cases spells with
  | openParen => exact ⟨_, _, .plain .openParen, rfl, rfl, rfl⟩
  | closeParen => exact ⟨_, _, .plain .closeParen, rfl, rfl, rfl⟩
  | comparison sign =>
      cases sign with
      | fuzzy =>
          exact ⟨'~', [], .plain (.comparison .fuzzy), rfl, rfl,
            beforeEquals_of_startsOutside stops _ _⟩
      | less =>
          exact ⟨'<', [], .plain (.comparison .less), rfl, rfl,
            beforeEquals_of_startsOutside stops _ _⟩
      | greater =>
          exact ⟨'>', [], .plain (.comparison .greater), rfl, rfl,
            beforeEquals_of_startsOutside stops _ _⟩
      | equal => exact ⟨'=', [], .plain (.comparison .equal), rfl, rfl, rfl⟩
      | notEqual => exact ⟨'!', ['='], .plain (.comparison .notEqual), rfl, rfl, rfl⟩
      | like => exact ⟨'~', ['='], .plain (.comparison .like), rfl, rfl, rfl⟩
      | atMost => exact ⟨'<', ['='], .plain (.comparison .atMost), rfl, rfl, rfl⟩
      | atLeast => exact ⟨'>', ['='], .plain (.comparison .atLeast), rfl, rfl, rfl⟩
  | blank firstBlank restBlank =>
      refine ⟨_, _, .plain .blank, rfl, rfl, ?_⟩
      rw [head_of_isBlank firstBlank, takeWhile_run restBlank stops]
  | word starts parts =>
      rw [Tag.goesOn_ofWord] at stops
      refine ⟨_, _, .word, rfl, rfl, ?_⟩
      rw [head_of_isWordStart starts, takeWhile_run parts stops]
  | int starts digits =>
      refine ⟨_, _, .plain (.literal .int), rfl, rfl, ?_⟩
      rw [head_of_isDigit_or_minus starts, number_int digits stops]
  | float starts wholeDigits placesDigits =>
      refine ⟨_, _, .plain (.literal .float), rfl, rfl, ?_⟩
      rw [head_of_isDigit_or_minus starts, number_float wholeDigits placesDigits stops]
  | @string inside absent =>
      refine ⟨_, _, .plain (.literal .string), rfl, rfl, ?_⟩
      have closed := Delimited.closing?_append absent rest
      simp [head, delimited, closed]
  | @regexp inside absent =>
      refine ⟨_, _, .plain (.literal .regexp), rfl, rfl, ?_⟩
      have closed := Delimited.closing?_append absent rest
      simp [head, delimited, closed]

/-- No text spells the tag of faults. -/
theorem Spells.tag_ne_error {tag : Tag} {text : List Char} (spells : Spells tag text) :
    tag ≠ .error := by
  obtain ⟨first, tail, shape, -, rfl, found⟩ :=
    head_of_spells spells (startsOutside_nil tag.goesOn)
  rw [List.append_nil] at found
  exact (isProper_head first tail shape (by rw [found]) text).2

/-- A spelled token that does not go on is cut off. -/
theorem cut_append_of_spells {tag : Tag} {text rest : List Char} (spells : Spells tag text)
    (stops : StartsOutside tag.goesOn rest) :
    ∃ shape, shape.tag text = tag ∧
      cut head (text ++ rest) = ⟨.ok shape, text⟩ :: cut head rest := by
  rcases head_of_spells spells stops with ⟨first, tail, shape, rfl, tag_eq, found⟩
  refine ⟨shape, tag_eq, ?_⟩
  rw [List.cons_append, cut_cons, found, List.take_left, List.drop_left]

/-! ## Words -/

/-- A token without its place. -/
structure Word where
  tag : Tag
  lexeme : String

namespace Word

/-- The word of a token. -/
def ofToken (token : Token Tag) : Word :=
  ⟨token.tag, token.lexeme⟩

/-- The text of words written side by side. -/
def textOf (words : List Word) : List Char :=
  words.flatMap fun word => word.lexeme.toList

@[simp]
theorem textOf_nil : textOf [] = [] :=
  rfl

@[simp]
theorem textOf_cons (word : Word) (words : List Word) :
    textOf (word :: words) = word.lexeme.toList ++ textOf words :=
  rfl

@[simp]
theorem textOf_append (first second : List Word) :
    textOf (first ++ second) = textOf first ++ textOf second :=
  List.flatMap_append

/-- Every word spells its tag, and no word goes on in what follows it; `rest` follows the
last one. -/
def Separated : List Word → List Char → Prop
  | [], _ => True
  | word :: words, rest =>
      Spells word.tag word.lexeme.toList ∧
        StartsOutside word.tag.goesOn (textOf words ++ rest) ∧ Separated words rest

theorem separated_append_iff {first second : List Word} {rest : List Char} :
    Separated (first ++ second) rest ↔
      Separated first (textOf second ++ rest) ∧ Separated second rest := by
  induction first with
  | nil => simp [Separated]
  | cons word first ih => simp [Separated, ih, and_assoc]

/-- The word of a piece. -/
def ofPiece (piece : Piece (Except Fault Shape)) : Word :=
  ⟨pieceTag piece, String.ofList piece.text⟩

/-- The pieces of separated words are the words. -/
theorem map_ofPiece_cut {words : List Word} {rest : List Char}
    (separated : Separated words rest) :
    (cut head (textOf words ++ rest)).map ofPiece = words ++ (cut head rest).map ofPiece := by
  induction words with
  | nil => rfl
  | cons word words ih =>
      rcases separated with ⟨spells, stops, later⟩
      rcases cut_append_of_spells spells stops with ⟨shape, tag_eq, found⟩
      have own : ofPiece ⟨.ok shape, word.lexeme.toList⟩ = word := by
        simp [ofPiece, pieceTag, tag_eq]
      rw [textOf_cons, List.append_assoc, found, List.map_cons, ih later, own,
        List.cons_append]

theorem tag_ne_error {words : List Word} {rest : List Char} (separated : Separated words rest) :
    ∀ word ∈ words, word.tag ≠ .error := by
  induction words with
  | nil => simp
  | cons word words ih =>
      rcases separated with ⟨spells, -, later⟩
      exact List.forall_mem_cons.2 ⟨spells.tag_ne_error, ih later⟩

end Word

/-- The words of the tokens of a query are the words of its pieces. -/
theorem map_ofToken_lexemes (query : String) :
    ((lexemes query).map Lexeme.token).map Word.ofToken =
      (cut head query.toList).map Word.ofPiece := by
  calc
    ((lexemes query).map Lexeme.token).map Word.ofToken =
        ((locate 0 (cut head query.toList)).map Prod.snd).map Word.ofPiece := by
      rw [lexemes, map_token_lexemesFrom, List.map_map, List.map_map]
      rfl
    _ = (cut head query.toList).map Word.ofPiece := by rw [map_snd_locate]

/-- Separated words are scanned without a fault, one token for each word. -/
theorem exists_tokens_of_separated {words : List Word} (separated : Word.Separated words [])
    {query : String} (text : query.toList = Word.textOf words) :
    ∃ scanned, tokens query = .ok scanned ∧ scanned.map Word.ofToken = words := by
  have pieces := Word.map_ofPiece_cut separated
  rw [List.append_nil, ← text, ← map_ofToken_lexemes, cut_nil, List.map_nil, List.append_nil]
    at pieces
  refine ⟨(lexemes query).map Lexeme.token, tokens_eq_ok_iff.2 ⟨?_, rfl⟩, ?_⟩
  · intro lexeme mem
    rw [error_eq_none_iff_of_mem mem]
    apply Word.tag_ne_error separated (.ofToken lexeme.token)
    rw [← pieces]
    exact List.mem_map_of_mem (List.mem_map_of_mem mem)
  · exact pieces

end SearchQuery.Query
