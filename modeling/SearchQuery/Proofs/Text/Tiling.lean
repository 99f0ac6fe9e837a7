import SearchQuery.Text.Caret
import SearchQuery.Text.Token

/-!
# Tokens side by side

The tokens of a text leave no gap and do not overlap: each one starts where the
one before it stops, and covers exactly its lexeme.  A run of such tokens covers
one span, and the text at that span is the text of the run.
-/

namespace SearchQuery.Text

/-- The text that a span covers; none if the span ends before it starts, behind the
text, or inside a character. -/
def slice? (text : List Char) (span : Span) : Option (List Char) := do
  let (before, _) ← splitAt? span.stop text
  let (_, part) ← splitAt? span.start before
  return part

/-- A text is split at the width of a part in front. -/
theorem splitAt?_append (before behind : List Char) :
    splitAt? (width before) (before ++ behind) = some (before, behind) := by
  induction before with
  | nil => rw [width_nil, List.nil_append, splitAt?]
  | cons c before ih =>
      rw [width_cons, List.cons_append]
      have size : 0 < c.utf8Size := c.utf8Size_pos
      obtain ⟨position, position_eq⟩ :
          ∃ position, c.utf8Size + width before = position + 1 :=
        ⟨c.utf8Size + width before - 1, by omega⟩
      have fits : c.utf8Size ≤ position + 1 := by omega
      have left : position + 1 - c.utf8Size = width before := by omega
      rw [position_eq, splitAt?, if_pos fits, left, ih]
      rfl

/-- The slice at the place of a part is the part. -/
theorem slice?_append (before part behind : List Char) :
    slice? (before ++ part ++ behind) ⟨width before, width before + width part⟩ =
      some part := by
  rw [slice?, ← width_append, splitAt?_append]
  simp [splitAt?_append]

/-- The width of a text is the number of its bytes. -/
theorem width_toList (text : String) : width text.toList = text.utf8ByteSize := by
  have bytes (text : List Char) : width text = (String.ofList text).utf8ByteSize := by
    induction text with
    | nil => rfl
    | cons c text ih =>
        rw [width_cons, ih, String.ofList_cons, String.utf8ByteSize_append,
          String.utf8ByteSize_singleton]
  rw [bytes, String.ofList_toList]

/-- The spans are not empty, and each one starts where the one before it stops: the
first at `start`, and the last one stops at `stop`. -/
def Tiles (start : Nat) : List Span → Nat → Prop
  | [], stop => start = stop
  | span :: rest, stop => span.start = start ∧ start < span.stop ∧ Tiles span.stop rest stop

namespace Token

universe u

variable {Tag : Type}

/-- The lexemes put together. -/
def textOf (tokens : List (Token Tag)) : List Char :=
  tokens.flatMap fun token => token.lexeme.toList

@[simp]
theorem textOf_nil : textOf ([] : List (Token Tag)) = [] :=
  rfl

@[simp]
theorem textOf_cons (token : Token Tag) (tokens : List (Token Tag)) :
    textOf (token :: tokens) = token.lexeme.toList ++ textOf tokens :=
  rfl

@[simp]
theorem textOf_append (first second : List (Token Tag)) :
    textOf (first ++ second) = textOf first ++ textOf second :=
  List.flatMap_append

/-- The tokens stand side by side from `start` on, each at the place of its lexeme. -/
def Placed (start : Nat) : List (Token Tag) → Prop
  | [] => True
  | token :: rest =>
      token.lexeme.toList ≠ [] ∧
        token.span = ⟨start, start + width token.lexeme.toList⟩ ∧
        Placed (start + width token.lexeme.toList) rest

theorem placed_append_iff {start : Nat} {first second : List (Token Tag)} :
    Placed start (first ++ second) ↔
      Placed start first ∧ Placed (start + width (textOf first)) second := by
  induction first generalizing start with
  | nil => simp [Placed]
  | cons token first ih =>
      rw [List.cons_append, textOf_cons, width_append, ← Nat.add_assoc]
      simp only [Placed, ih, and_assoc]

/-- Tokens side by side have a text, unless there are none. -/
theorem Placed.textOf_ne_nil {start : Nat} {tokens : List (Token Tag)}
    (placed : Placed start tokens) (nonempty : tokens ≠ []) : textOf tokens ≠ [] := by
  cases tokens with
  | nil => exact absurd rfl nonempty
  | cons token tokens => exact List.append_ne_nil_of_left_ne_nil placed.1 _

/-- Tokens side by side tile their text. -/
theorem Placed.tiles {start : Nat} {tokens : List (Token Tag)}
    (placed : Placed start tokens) :
    Tiles start (tokens.map Token.span) (start + width (textOf tokens)) := by
  induction tokens generalizing start with
  | nil => simp [Tiles]
  | cons token tokens ih =>
      rcases placed with ⟨nonempty, span_eq, rest⟩
      have positive := width_pos nonempty
      have tiles := ih rest
      rw [Nat.add_assoc, ← width_append, ← textOf_cons] at tiles
      rw [List.map_cons, Tiles, span_eq]
      exact ⟨rfl, Nat.lt_add_of_pos_right positive, tiles⟩

/-- A span is extended by the tokens that follow it. -/
theorem Placed.foldl_merge (span : Span) {tokens : List (Token Tag)}
    (placed : Placed span.stop tokens) (ordered : span.start ≤ span.stop) :
    (tokens.map Token.span).foldl Span.merge span =
      ⟨span.start, span.stop + width (textOf tokens)⟩ := by
  induction tokens generalizing span with
  | nil => rfl
  | cons token tokens ih =>
      rcases placed with ⟨nonempty, span_eq, rest⟩
      have merged : span.merge token.span =
          ⟨span.start, span.stop + width token.lexeme.toList⟩ := by
        rw [span_eq, Span.merge, Nat.min_eq_left ordered,
          Nat.max_eq_right (Nat.le_add_right _ _)]
      have longer := ih ⟨span.start, span.stop + width token.lexeme.toList⟩ rest
        (Nat.le_trans ordered (Nat.le_add_right _ _))
      rw [List.map_cons, List.foldl_cons, merged, longer, textOf_cons, width_append,
        Nat.add_assoc]

/-- The text at the place of a token is its lexeme. -/
theorem Placed.slice?_of_mem {tokens : List (Token Tag)} {token : Token Tag}
    (placed : Placed 0 tokens) (mem : token ∈ tokens) :
    slice? (textOf tokens) token.span = some token.lexeme.toList := by
  rcases List.append_of_mem mem with ⟨before, behind, rfl⟩
  rcases (placed_append_iff.1 placed).2 with ⟨-, span_eq, -⟩
  rw [Nat.zero_add] at span_eq
  rw [span_eq, textOf_append, textOf_cons, ← List.append_assoc]
  exact slice?_append _ _ _

/-- A token covers its lexeme, and its place is told in bytes of the whole text. -/
theorem Placed.exists_span_eq {text : String} {tokens : List (Token Tag)} {token : Token Tag}
    (placed : Placed 0 tokens) (text_eq : textOf tokens = text.toList) (mem : token ∈ tokens) :
    ∃ before behind, text = before ++ token.lexeme ++ behind ∧
      token.span = ⟨before.utf8ByteSize, (before ++ token.lexeme).utf8ByteSize⟩ := by
  rcases List.append_of_mem mem with ⟨before, behind, rfl⟩
  have span_eq := (placed_append_iff.1 placed).2.2.1
  refine ⟨String.ofList (textOf before), String.ofList (textOf behind), ?_, ?_⟩
  · rw [← String.toList_inj, ← text_eq]
    simp
  · rw [span_eq, ← width_toList, ← width_toList]
    simp

/-- A token starts where the text in front of it ends. -/
theorem Placed.span_start {before behind : List (Token Tag)} {token : Token Tag}
    (placed : Placed 0 (before ++ token :: behind)) :
    token.span.start = width (textOf before) := by
  rcases (placed_append_iff.1 placed).2 with ⟨-, span_eq, -⟩
  rw [span_eq, Nat.zero_add]

/-- Behind a token stands the text of the tokens behind it. -/
theorem Placed.span_stop {before behind : List (Token Tag)} {token : Token Tag}
    (placed : Placed 0 (before ++ token :: behind)) :
    token.span.stop + width (textOf behind) =
      width (textOf (before ++ token :: behind)) := by
  rcases (placed_append_iff.1 placed).2 with ⟨-, span_eq, -⟩
  rw [span_eq, Nat.zero_add, textOf_append, textOf_cons, width_append, width_append,
    Nat.add_assoc]

/-- The tokens with a mark at their end. -/
def marked (tag : Tag) (start : Nat) (tokens : List (Token Tag)) : List (Token Tag) :=
  tokens ++ [mark tag (start + width (textOf tokens))]

theorem marked_cons (tag : Tag) (start : Nat) (token : Token Tag) (tokens : List (Token Tag)) :
    marked tag start (token :: tokens) =
      token :: marked tag (start + width token.lexeme.toList) tokens := by
  simp [marked, Nat.add_assoc]

theorem Placed.le_start {tag : Tag} {start : Nat} {tokens : List (Token Tag)}
    (placed : Placed start tokens) :
    ∀ token ∈ marked tag start tokens, start ≤ token.span.start := by
  induction tokens generalizing start with
  | nil =>
      intro token mem
      rw [List.mem_singleton.1 mem]
      exact Nat.le_refl start
  | cons first tokens ih =>
      rcases placed with ⟨-, span_eq, rest⟩
      rw [marked_cons, List.forall_mem_cons]
      refine ⟨Nat.le_of_eq (congrArg Span.start span_eq).symm, ?_⟩
      intro token mem
      exact Nat.le_trans (Nat.le_add_right _ _) (ih rest token mem)

/-- Tokens side by side start one behind the other, and the mark starts behind them all. -/
theorem Placed.pairwise_start {start : Nat} {tokens : List (Token Tag)}
    (placed : Placed start tokens) (tag : Tag) :
    (marked tag start tokens).Pairwise fun first second =>
      first.span.start < second.span.start := by
  induction tokens generalizing start with
  | nil => exact List.pairwise_singleton _ _
  | cons first tokens ih =>
      rcases placed with ⟨nonempty, span_eq, rest⟩
      rw [marked_cons, List.pairwise_cons]
      refine ⟨?_, ih rest⟩
      intro token mem
      rw [span_eq]
      exact Nat.lt_of_lt_of_le (Nat.lt_add_of_pos_right (width_pos nonempty))
        (rest.le_start token mem)

/-- Pieces that are not empty, each put at its place, stand side by side. -/
theorem placed_locate {κ : Type u} (tag : Piece κ → Tag) (start : Nat)
    {pieces : List (Piece κ)} (nonempty : ∀ piece ∈ pieces, piece.text ≠ []) :
    Placed start ((locate start pieces).map fun entry =>
      ofText (tag entry.2) entry.1 entry.2.text) := by
  induction pieces generalizing start with
  | nil => trivial
  | cons piece pieces ih =>
      have rest := ih (start + width piece.text)
        (fun other mem => nonempty other (List.mem_cons_of_mem _ mem))
      rw [locate_cons, List.map_cons, Placed]
      refine ⟨?_, ?_, ?_⟩
      · simpa [ofText] using nonempty piece List.mem_cons_self
      · simp [ofText]
      · simpa [ofText] using rest

/-- The lexemes of located pieces are the texts of the pieces. -/
theorem textOf_locate {κ : Type u} (tag : Piece κ → Tag) (start : Nat)
    (pieces : List (Piece κ)) :
    textOf ((locate start pieces).map fun entry =>
      ofText (tag entry.2) entry.1 entry.2.text) = pieces.flatMap Piece.text := by
  induction pieces generalizing start with
  | nil => rfl
  | cons piece pieces ih =>
      rw [locate_cons, List.map_cons, textOf_cons, ih, List.flatMap_cons]
      simp [ofText]

end Token

end SearchQuery.Text
