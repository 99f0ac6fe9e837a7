import SearchQuery.Proofs.Canonical.RoundTrip
import SearchQuery.Proofs.Scan.Decomposition

/-!
# Queries in another layout

A query is laid out anew by blanks between its tokens, where there were none or where there were
others (`Relaid`).  No token but a blank one goes on with a blank character, so blanks between two
tokens neither join them nor split them.  The new query is scanned without a fault, and apart from
the blanks its tokens are those of the old one (`Relaid.exists_scan`).
-/

namespace SearchQuery.Query

open Text

/-- The text of the tokens in another layout.  Blanks may be put in between any two tokens and at
both ends, and any blank token may be replaced by other blanks, but not by nothing. -/
inductive Relaid : List (Token Tag) → List Char → Prop
  | nil : Relaid [] []
  | keep {tokens : List (Token Tag)} {text : List Char} (token : Token Tag)
      (rest : Relaid tokens text) : Relaid (token :: tokens) (token.lexeme.toList ++ text)
  | insert {tokens : List (Token Tag)} {text blanks : List Char}
      (allBlank : ∀ c ∈ blanks, isBlank c = true) (rest : Relaid tokens text) :
      Relaid tokens (blanks ++ text)
  | replace {tokens : List (Token Tag)} {text blanks : List Char} {token : Token Tag}
      (blank : token.tag = .blank) (nonempty : blanks ≠ [])
      (allBlank : ∀ c ∈ blanks, isBlank c = true) (rest : Relaid tokens text) :
      Relaid (token :: tokens) (blanks ++ text)

/-- No token but a blank one goes on with a blank character. -/
theorem Tag.goesOn_of_isBlank {tag : Tag} (notBlank : tag ≠ .blank) {c : Char}
    (blank : isBlank c = true) : tag.goesOn c = false := by
  have bounds := toNat_of_isBlank blank
  have outside (inside : Bool) (within : inside = true → 33 ≤ c.toNat ∧ c.toNat ≤ 132) :
      inside = false := by
    apply Bool.eq_false_iff.2
    intro holds
    have within := within holds
    omega
  have noEquals : (c == '=') = false := outside _ fun equals => by
    rw [beq_iff_eq.1 equals]
    decide
  have noPoint : (c == '.') = false := outside _ fun point => by
    rw [beq_iff_eq.1 point]
    decide
  have noDigit : c.isDigit = false := outside _ fun digit => by
    have within := @toNat_of_isDigit_or_minus c (by simp [digit])
    omega
  have noStart : isWordStart c = false := outside _ fun starts => by
    have within := toNat_of_isWordStart starts
    omega
  have noPart : isWordPart c = false := by
    rw [isWordStart, Bool.or_eq_false_iff] at noStart
    simp [isWordPart, Char.isAlphanum, noStart, noDigit]
  cases tag with
  | blank => exact absurd rfl notBlank
  | comparison sign => cases sign <;> first | rfl | exact noEquals
  | connective word => exact noPart
  | field => exact noPart
  | literal kind => cases kind <;> simp [goesOn, noPart, noDigit, noPoint]
  | _ => rfl

/-- The words of a text that carry meaning. -/
def significantWords (text : List Char) : List Word :=
  ((cut head text).map Word.ofPiece).filter (·.tag != .blank)

/-- A token that does not go on gives the first word of its text. -/
theorem significantWords_append {token : Token Tag} {text : List Char}
    (notBlank : token.tag ≠ .blank) (spells : Spells token.tag token.lexeme.toList)
    (stops : StartsOutside token.tag.goesOn text) :
    significantWords (token.lexeme.toList ++ text) = .ofToken token :: significantWords text := by
  rcases cut_append_of_spells spells stops with ⟨shape, tag_eq, found⟩
  have own : Word.ofPiece ⟨.ok shape, token.lexeme.toList⟩ = .ofToken token := by
    simp [Word.ofPiece, Word.ofToken, pieceTag, tag_eq]
  rw [significantWords, found, List.map_cons, own,
    List.filter_cons_of_pos (by simp [Word.ofToken, notBlank]), significantWords]

/-- Blanks in front of a text carry no meaning. -/
theorem significantWords_blanks_append {blanks : List Char}
    (allBlank : ∀ c ∈ blanks, isBlank c = true) (text : List Char) :
    significantWords (blanks ++ text) = significantWords text := by
  have whole {run behind : List Char} (blank : ∀ c ∈ run, isBlank c = true)
      (outside : StartsOutside isBlank behind) :
      significantWords (run ++ behind) = significantWords behind := by
    cases run with
    | nil => rfl
    | cons first run =>
        rcases List.forall_mem_cons.1 blank with ⟨firstBlank, restBlank⟩
        rcases cut_append_of_spells (.blank firstBlank restBlank) outside with
          ⟨shape, tag_eq, found⟩
        have own : (Word.ofPiece ⟨.ok shape, first :: run⟩).tag = .blank := tag_eq
        rw [significantWords, found, List.map_cons, List.filter_cons_of_neg (by simp [own]),
          significantWords]
  -- the blanks that the text begins with join those in front of it
  rcases exists_run isBlank text with ⟨run, behind, rfl, runBlank, outside⟩
  have joined : ∀ c ∈ blanks ++ run, isBlank c = true :=
    List.forall_mem_append.2 ⟨allBlank, runBlank⟩
  rw [← List.append_assoc, whole joined outside, whole runBlank outside]

namespace Relaid

variable {tokens : List (Token Tag)} {text : List Char}

/-- What begins a text in another layout is a blank or begins it in the old one. -/
theorem startsOutside (relaid : Relaid tokens text) {tag : Tag} (notBlank : tag ≠ .blank)
    (nonempty : ∀ token ∈ tokens, token.lexeme.toList ≠ [])
    (stops : StartsOutside tag.goesOn (Token.textOf tokens)) : StartsOutside tag.goesOn text := by
  have blankStops {blanks text : List Char} (nonempty : blanks ≠ [])
      (allBlank : ∀ c ∈ blanks, isBlank c = true) :
      StartsOutside tag.goesOn (blanks ++ text) := by
    obtain ⟨first, blanks, rfl⟩ := List.exists_cons_of_ne_nil nonempty
    exact startsOutside_cons_iff.2
      (Tag.goesOn_of_isBlank notBlank (allBlank first List.mem_cons_self))
  induction relaid with
  | nil => exact stops
  | @keep tokens text token rest ih =>
      obtain ⟨first, tail, lexeme_eq⟩ :=
        List.exists_cons_of_ne_nil (nonempty token List.mem_cons_self)
      rw [Token.textOf_cons, lexeme_eq, List.cons_append, startsOutside_cons_iff] at stops
      rw [lexeme_eq, List.cons_append, startsOutside_cons_iff]
      exact stops
  | @insert tokens text blanks allBlank rest ih =>
      by_cases empty : blanks = []
      · rw [empty, List.nil_append]
        exact ih nonempty stops
      · exact blankStops empty allBlank
  | replace blank notEmpty allBlank rest ih => exact blankStops notEmpty allBlank

/-- Another layout keeps the words that carry meaning. -/
theorem significantWords_eq (relaid : Relaid tokens text)
    (separated : Word.Separated (tokens.map Word.ofToken) []) :
    significantWords text = (Filter.significant tokens).map Word.ofToken := by
  induction relaid with
  | nil => simp [significantWords, Filter.significant]
  | @keep tokens text token rest ih =>
      rcases separated with ⟨spells, stops, later⟩
      change Spells token.tag token.lexeme.toList at spells
      by_cases blank : token.tag = .blank
      · have admits := spells.admits
        rw [blank] at admits
        rw [significantWords_blanks_append admits.2, ih later,
          Filter.significant_cons_of_blank blank]
      · have nonempty : ∀ other ∈ tokens, other.lexeme.toList ≠ [] := by
          intro other mem
          exact ((Word.separated_nil_iff.1 later).1 _ (List.mem_map_of_mem mem)).ne_nil
        have textOf_eq : Word.textOf (tokens.map Word.ofToken) = Token.textOf tokens :=
          List.flatMap_map ..
        rw [List.append_nil, textOf_eq] at stops
        rw [significantWords_append blank spells (rest.startsOutside blank nonempty stops),
          ih later, Filter.significant_cons_of_ne blank, List.map_cons]
  | insert allBlank rest ih =>
      rw [significantWords_blanks_append allBlank, ih separated]
  | replace blank nonempty allBlank rest ih =>
      rw [significantWords_blanks_append allBlank, ih separated.2.2,
        Filter.significant_cons_of_blank blank]

/-- The mark at the end takes no part in the layout. -/
theorem of_mark {mark : Token Tag} (empty : mark.lexeme = "") (notBlank : mark.tag ≠ .blank)
    (relaid : Relaid (tokens ++ [mark]) text) : Relaid tokens text := by
  generalize marked_eq : tokens ++ [mark] = marked at relaid
  induction relaid generalizing tokens with
  | nil => simp at marked_eq
  | @keep others text token rest ih =>
      cases tokens with
      | nil =>
          obtain ⟨rfl, rfl⟩ := List.cons.inj marked_eq
          rw [empty]
          exact rest
      | cons first tokens =>
          obtain ⟨rfl, split⟩ := List.cons.inj marked_eq
          exact .keep first (ih split)
  | insert allBlank rest ih => exact .insert allBlank (ih marked_eq)
  | @replace others text blanks token blank nonempty allBlank rest ih =>
      cases tokens with
      | nil =>
          obtain ⟨rfl, -⟩ := List.cons.inj marked_eq
          exact absurd blank notBlank
      | cons first tokens =>
          obtain ⟨rfl, split⟩ := List.cons.inj marked_eq
          exact .replace blank nonempty allBlank (ih split)

/-- A query in another layout is scanned as the words of the old one, apart from blanks. -/
theorem exists_scan {query other : String} {scanned : List (Token Tag)}
    (relaid : Relaid scanned other.toList) (scans : scan query = .ok scanned) :
    ∃ rescanned, scan other = .ok rescanned ∧
      (Filter.significant rescanned).map Word.ofToken =
        (Filter.significant scanned).map Word.ofToken := by
  obtain ⟨found, foundScans, rfl⟩ := scan_eq_ok_iff_tokens.1 scans
  obtain ⟨words, isCut, rfl⟩ := tokens_eq_ok_iff_isLongestCut.1 foundScans
  have separated := (isLongestCut_iff_separated.1 isCut).2
  have kept := (relaid.of_mark rfl Tag.noConfusion).significantWords_eq
    (by rwa [Word.map_ofToken_place])
  have faultless : ∀ piece ∈ cut head other.toList, pieceTag piece ≠ .error := by
    intro piece mem error
    have significant : Word.ofPiece piece ∈ significantWords other.toList := by
      refine List.mem_filter.2 ⟨List.mem_map_of_mem mem, ?_⟩
      simp [Word.ofPiece, error]
    rw [kept, Filter.map_ofToken_significant, Word.map_ofToken_place] at significant
    exact Word.tag_ne_error separated _ (List.mem_of_mem_filter significant) error
  have rescans := tokens_eq_ok_iff_isLongestCut.2
    ⟨_, isLongestCut_map_ofPiece_cut faultless, rfl⟩
  refine ⟨_, scan_eq_ok_iff_tokens.2 ⟨_, rescans, rfl⟩, ?_⟩
  have marked (query : String) (tokens : List (Token Tag)) :
      (Filter.significant (tokens ++ [endMark query])).map Word.ofToken =
        (Filter.significant tokens).map Word.ofToken ++ [⟨.eof, ""⟩] := by
    rw [Filter.significant, List.filter_append, List.map_append]
    rfl
  rw [marked, marked, ← kept, Filter.map_ofToken_significant, Word.map_ofToken_place,
    significantWords]

end Relaid

end SearchQuery.Query
