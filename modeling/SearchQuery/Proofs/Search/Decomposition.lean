import SearchQuery.Proofs.Search.Longest

/-!
# The longest-match decomposition of a search text

Every tag has a class of texts, and what stands behind a piece decides whether it could be longer
(`Tag.Admits`).  A cut of a search text by longest match has tokens of these classes side by side
(`IsLongestCut`).  Every search text has exactly one such cut, and the scan is this cut with the
mark behind it (`exists_isLongestCut_scan`).
-/

namespace SearchQuery.Search

open Text

/-! ## Classes of texts -/

/-- The text begins with the delimiter and goes on to the next one, or to the end if there is
none. -/
def IsDelimited (delimiter : Char) (text behind : List Char) : Prop :=
  ∃ inside, delimiter ∉ inside ∧
    (text = delimiter :: (inside ++ [delimiter]) ∨ text = delimiter :: inside ∧ behind = [])

/-- The text is of the class that the tag stands for, and it could not be longer in front of
`behind`. -/
def Tag.Admits (tag : Tag) (text behind : List Char) : Prop :=
  match tag with
  | .mention => text = ['@']
  | .publication => text = ['~']
  | .quoted => IsDelimited '"' text behind
  | .regexp => IsDelimited '/' text behind
  | .blank => text ≠ [] ∧ (∀ c ∈ text, isBlank c = true) ∧ StartsOutside isBlank behind
  | .error => ∃ c, text = [c] ∧ isControl c = true ∧ isBlank c = false
  | .word =>
      (∃ first rest, text = first :: rest ∧ first ≠ '/') ∧ (∀ c ∈ text, isWordPart c = true) ∧
        StartsOutside isWordPart behind
  | .eof => False

section Admits

variable {tag : Tag} {text behind : List Char}

/-- A spelled piece that does not go on is of the class of its tag. -/
theorem Spells.admits (spells : Spells tag text)
    (stops : StartsOutside (goesOn ⟨tag, text⟩) behind) : tag.Admits text behind := by
  cases spells with
  | mention => exact rfl
  | publication => exact rfl
  | quoted absent => exact ⟨_, absent, .inl rfl⟩
  | openQuoted absent =>
      exact ⟨_, absent, .inr ⟨rfl, stops.eq_nil fun _ => decide_eq_true absent⟩⟩
  | regexp absent => exact ⟨_, absent, .inl rfl⟩
  | openRegexp absent =>
      exact ⟨_, absent, .inr ⟨rfl, stops.eq_nil fun _ => decide_eq_true absent⟩⟩
  | blank firstBlank restBlank =>
      exact ⟨List.cons_ne_nil _ _, List.forall_mem_cons.2 ⟨firstBlank, restBlank⟩, stops⟩
  | word word =>
      rcases exists_cons_of_isWord word with ⟨first, rest, rfl, notSlash, -, -⟩
      exact ⟨⟨first, rest, rfl, notSlash⟩, isWordPart_of_mem word, stops⟩
  | error control notBlank => exact ⟨_, rfl, control, notBlank⟩

/-- A delimited text that is closed goes on with nothing, and an open one has nothing behind it. -/
theorem IsDelimited.startsOutside {delimiter : Char}
    (isDelimited : IsDelimited delimiter text behind) :
    StartsOutside (fun _ => delimiter ∉ text.tail) behind := by
  rcases isDelimited with ⟨inside, absent, rfl | ⟨rfl, rfl⟩⟩
  · intro c _
    simp
  · exact startsOutside_nil _

/-- The classes are those of the spelled pieces that do not go on. -/
theorem admits_iff :
    tag.Admits text behind ↔ Spells tag text ∧ StartsOutside (goesOn ⟨tag, text⟩) behind := by
  refine ⟨fun admits => ?_, fun ⟨spells, stops⟩ => spells.admits stops⟩
  cases tag with
  | eof => cases admits
  | mention =>
      obtain rfl := admits
      exact ⟨.mention, fun _ _ => rfl⟩
  | publication =>
      obtain rfl := admits
      exact ⟨.publication, fun _ _ => rfl⟩
  | quoted =>
      refine ⟨?_, IsDelimited.startsOutside admits⟩
      rcases admits with ⟨inside, absent, rfl | ⟨rfl, -⟩⟩
      · exact .quoted absent
      · exact .openQuoted absent
  | regexp =>
      refine ⟨?_, IsDelimited.startsOutside admits⟩
      rcases admits with ⟨inside, absent, rfl | ⟨rfl, -⟩⟩
      · exact .regexp absent
      · exact .openRegexp absent
  | blank =>
      rcases admits with ⟨nonempty, blank, stops⟩
      obtain ⟨first, rest, rfl⟩ := List.exists_cons_of_ne_nil nonempty
      rcases List.forall_mem_cons.1 blank with ⟨firstBlank, restBlank⟩
      exact ⟨.blank firstBlank restBlank, stops⟩
  | word =>
      rcases admits with ⟨⟨first, rest, rfl, notSlash⟩, parts, stops⟩
      refine ⟨.word ?_, stops⟩
      rw [List.forall_mem_cons] at parts
      simpa [isWord, notSlash] using parts
  | error =>
      rcases admits with ⟨c, rfl, control, notBlank⟩
      exact ⟨.error control notBlank, fun _ _ => rfl⟩

end Admits

/-! ## The cut of a search text -/

/-- The tokens are a cut of the text by longest match: they stand side by side, put together they
are the text, and each is of the class of its tag in front of what stands behind it. -/
structure IsLongestCut (text : String) (cut : List (Token Tag)) : Prop where
  placed : Token.Placed 0 cut
  text : Token.textOf cut = text.toList
  admits : ∀ token behind, token :: behind <:+ cut →
    token.tag.Admits token.lexeme.toList (Token.textOf behind)

theorem flatMap_text_map_pieceOf (tokens : List (Token Tag)) :
    (tokens.map pieceOf).flatMap Piece.text = Token.textOf tokens := by
  rw [List.flatMap_map]
  rfl

/-- Tokens are of their classes exactly if they are separated pieces. -/
theorem separated_map_pieceOf_iff {cut : List (Token Tag)} :
    Separated (cut.map pieceOf) [] ↔ ∀ token behind, token :: behind <:+ cut →
      token.tag.Admits token.lexeme.toList (Token.textOf behind) := by
  induction cut with
  | nil => simp [Separated]
  | cons first cut ih =>
      rw [List.map_cons, Separated, flatMap_text_map_pieceOf, List.append_nil, ih, ← and_assoc,
        pieceOf, ← admits_iff]
      simp [List.suffix_cons_iff, or_imp, forall_and]

/-- Tokens side by side are told by their pieces. -/
theorem eq_of_map_pieceOf_eq {start : Nat} {first second : List (Token Tag)}
    (firstPlaced : Token.Placed start first) (secondPlaced : Token.Placed start second)
    (same : first.map pieceOf = second.map pieceOf) : first = second := by
  induction first generalizing start second with
  | nil => simpa using same.symm
  | cons token first ih =>
      cases second with
      | nil => simp at same
      | cons other second =>
          rcases token with ⟨tag, lexeme, span⟩
          rcases other with ⟨otherTag, otherLexeme, otherSpan⟩
          simp only [List.map_cons, List.cons.injEq, pieceOf, Piece.mk.injEq,
            String.toList_inj] at same
          rcases same with ⟨⟨rfl, rfl⟩, later⟩
          simp only [Token.Placed] at firstPlaced secondPlaced
          rcases firstPlaced with ⟨-, rfl, firstRest⟩
          rcases secondPlaced with ⟨-, rfl, secondRest⟩
          rw [ih firstRest secondRest later]

/-- The pieces of a text are separated. -/
theorem separated_cut (text : List Char) : Separated (cut head text) [] := by
  fun_induction cut head text with
  | case1 => trivial
  | case2 c rest ih =>
      have whole := isWhole_head c rest
      refine ⟨whole.spells, ?_, ih⟩
      rw [flatMap_text_cut, List.append_nil]
      exact whole.stops

theorem isLongestCut_tokens (text : String) : IsLongestCut text (tokens text) where
  placed := placed_tokensFrom 0 text.toList
  text := textOf_tokensFrom 0 text.toList
  admits := by
    rw [← separated_map_pieceOf_iff, map_pieceOf_tokens]
    exact separated_cut text.toList

section Cut

variable {text : String} {cut : List (Token Tag)}

/-- A search text has no other cut by longest match than its tokens. -/
theorem IsLongestCut.eq_tokens (isCut : IsLongestCut text cut) : cut = tokens text := by
  apply eq_of_map_pieceOf_eq isCut.placed (placed_tokensFrom 0 text.toList)
  have pieces := cut_of_separated (separated_map_pieceOf_iff.2 isCut.admits)
  rw [List.append_nil, flatMap_text_map_pieceOf, isCut.text, cut_nil, List.append_nil] at pieces
  exact pieces.symm.trans (map_pieceOf_tokens text).symm

theorem isLongestCut_iff : IsLongestCut text cut ↔ cut = tokens text :=
  ⟨IsLongestCut.eq_tokens, fun same => same ▸ isLongestCut_tokens text⟩

/-- No word stands behind a word, and no blank behind a blank: the first of them would go on. -/
theorem IsLongestCut.tag_ne (isCut : IsLongestCut text cut) {token next : Token Tag}
    {behind : List (Token Tag)} (neighbours : token :: next :: behind <:+ cut)
    (same : token.tag = next.tag) : token.tag ≠ .word ∧ token.tag ≠ .blank := by
  have here := isCut.admits token _ neighbours
  have later := isCut.admits next behind ((List.suffix_cons _ _).trans neighbours)
  rw [Token.textOf_cons] at here
  rw [← same] at later
  constructor
  · intro tag
    rw [tag] at here later
    obtain ⟨⟨first, rest, text_eq, -⟩, parts, -⟩ := later
    exact not_startsOutside_run (text_eq ▸ List.cons_ne_nil first rest) parts _ here.2.2
  · intro tag
    rw [tag] at here later
    exact not_startsOutside_run later.1 later.2.1 _ here.2.2

/-- Every search text is scanned, and its tokens are the one cut of it by longest match, with an
empty mark behind them.  The tokens leave no gap, and each one starts and stops between two
characters of the text.  No two words and no two blanks are neighbours, and a faulty token is a
single control character. -/
theorem exists_isLongestCut_scan (text : String) :
    ∃ cut, scan text = cut ++ [⟨.eof, "", ⟨text.utf8ByteSize, text.utf8ByteSize⟩⟩] ∧
      (∀ other, IsLongestCut text other ↔ other = cut) ∧
      Tiles 0 (cut.map Token.span) text.utf8ByteSize ∧
      (∀ token ∈ cut, ∃ before behind, text = before ++ token.lexeme ++ behind ∧
        token.span = ⟨before.utf8ByteSize, (before ++ token.lexeme).utf8ByteSize⟩) ∧
      (∀ token next behind, token :: next :: behind <:+ cut → token.tag = next.tag →
        token.tag ≠ .word ∧ token.tag ≠ .blank) ∧
      ∀ token ∈ cut, token.tag = .error →
        ∃ c, token.lexeme = String.singleton c ∧ isControl c = true ∧ isBlank c = false := by
  have isCut := isLongestCut_tokens text
  have tiles := isCut.placed.tiles
  rw [isCut.text, Nat.zero_add, width_toList] at tiles
  refine ⟨tokens text, ?_, fun _ => isLongestCut_iff, tiles, ?_, ?_, ?_⟩
  · rw [scan, endMark, width_toList]
    rfl
  · exact fun token => isCut.placed.exists_span_eq isCut.text
  · exact fun token next behind => isCut.tag_ne
  · intro token mem tag
    obtain ⟨before, behind, split⟩ := List.append_of_mem mem
    have admits := isCut.admits token behind ⟨before, split.symm⟩
    rw [tag] at admits
    obtain ⟨c, lexeme, control, notBlank⟩ := admits
    refine ⟨c, ?_, control, notBlank⟩
    rw [← String.toList_inj, lexeme, String.toList_singleton]

/-- A word glued to a pattern, a blank that is also a control character, a control character that
is none, and an open phrase with the letter `é`, which is two bytes wide. -/
theorem isLongestCut_glued :
    let cut : List (Token Tag) := [⟨.regexp, "/a/", ⟨0, 3⟩⟩, ⟨.word, "b", ⟨3, 4⟩⟩,
      ⟨.blank, "\u0085", ⟨4, 6⟩⟩, ⟨.error, "\u0007", ⟨6, 7⟩⟩, ⟨.quoted, "\"é", ⟨7, 10⟩⟩]
    scan "/a/b\u0085\u0007\"é" = cut ++ [⟨.eof, "", ⟨10, 10⟩⟩] ∧
      (∀ other, IsLongestCut "/a/b\u0085\u0007\"é" other ↔ other = cut) ∧
      Tiles 0 (cut.map Token.span) 10 ∧
      ∃ c, "\u0007" = String.singleton c ∧ isControl c = true ∧ isBlank c = false := by
  intro cut
  have scans : scan "/a/b\u0085\u0007\"é" = cut ++ [⟨.eof, "", ⟨10, 10⟩⟩] := by decide +kernel
  obtain ⟨found, same, isCut_iff, tiles, -, -, faulty⟩ :=
    exists_isLongestCut_scan "/a/b\u0085\u0007\"é"
  obtain rfl : cut = found := List.append_cancel_right (scans.symm.trans same)
  exact ⟨scans, isCut_iff, tiles, faulty ⟨.error, "\u0007", ⟨6, 7⟩⟩ (by simp [cut]) rfl⟩

end Cut

end SearchQuery.Search
