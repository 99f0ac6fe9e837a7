import Mathlib.Order.MinMax
import SearchQuery.Proofs.Search.Steps

/-!
# Search text at another place

The reader of search text only hands the positions of its tokens on.  So if the tokens are moved
to other places in the same order, the terms move with them (`Reader.Reads.moved`,
`Reader.finish_moved`).  In particular a part of a text has the same tokens as the part by
itself, moved by the width of the text in front (`map_moved_tokensFrom`).
-/

namespace SearchQuery.Text

variable {move : Nat → Nat}

/-- The span with its two ends moved. -/
def Span.moved (move : Nat → Nat) (span : Span) : Span :=
  ⟨move span.start, move span.stop⟩

/-- The token at another place. -/
def Token.moved {Tag : Type} (move : Nat → Nat) (token : Token Tag) : Token Tag :=
  { token with span := token.span.moved move }

theorem Span.moved_merge (monotone : Monotone move) (first second : Span) :
    (first.merge second).moved move = (first.moved move).merge (second.moved move) := by
  simp [moved, merge, monotone.map_min, monotone.map_max]

theorem Token.moved_mark {Tag : Type} (tag : Tag) (position : Nat) :
    (mark tag position).moved move = mark tag (move position) := by
  simp [moved, mark, ofText, Span.moved]

end SearchQuery.Text

namespace SearchQuery.Search

open Text

variable {move : Nat → Nat}

/-- A text behind a distance has the tokens of the text alone, further behind. -/
theorem map_moved_tokensFrom (distance : Nat) (text : List Char) :
    (tokensFrom distance text).map (Token.moved (· - distance)) = tokensFrom 0 text := by
  rw [tokensFrom, ← Nat.add_zero distance, locate_add, List.map_map, List.map_map, tokensFrom]
  apply List.map_congr_left
  rintro ⟨position, piece⟩ -
  simp [Token.moved, Token.ofText, Span.moved, Nat.add_assoc]

/-- The term at another place. -/
def Term.moved (move : Nat → Nat) (term : Term) : Term :=
  { term with span := term.span.moved move }

/-- What is open, at another place. -/
def Last.moved (move : Nat → Nat) : Last → Last
  | nothing => nothing
  | blank token => blank (token.moved move)
  | sigil subject token => sigil subject (token.moved move)
  | term open? spaced => term (open?.moved move) spaced

/-- The reader with all its places moved. -/
def Reader.moved (move : Nat → Nat) (reader : Reader) : Reader :=
  ⟨reader.finished.map (Term.moved move), reader.last.moved move⟩

theorem Last.close_moved (last : Last) :
    (last.moved move).close = last.close.map (Term.moved move) := by
  cases last <;> rfl

theorem Last.sigilTerm_moved (monotone : Monotone move) (subject : Subject)
    (sigil text : Token Tag) :
    sigilTerm subject (sigil.moved move) (text.moved move) =
      (sigilTerm subject sigil text).moved move := by
  rw [Term.moved, sigilTerm, sigilTerm, Span.moved_merge monotone]
  rfl

namespace Reader

variable {reader after : Reader} {token : Token Tag}

theorem begin_moved (reader : Reader) {last other : Last} (same : other = last.moved move) :
    (reader.moved move).begin other = (reader.begin last).moved move := by
  rw [same, begin, moved, Last.close_moved, ← List.map_append]
  rfl

theorem takeBlank_moved (reader : Reader) (token : Token Tag) :
    (reader.moved move).takeBlank (token.moved move) = (reader.takeBlank token).moved move := by
  have begun : (reader.moved move).begin (.blank (token.moved move)) =
      (reader.begin (.blank token)).moved move := begin_moved reader rfl
  rcases reader with ⟨finished, last⟩
  cases last with
  | term term spaced =>
      cases spaced with
      | false => rfl
      | true => exact begun
  | _ => exact begun

theorem takeWord_moved (reader : Reader) (token : Token Tag) :
    (reader.moved move).takeWord (token.moved move) = (reader.takeWord token).moved move := by
  have begun :
      (reader.moved move).begin (.term (Last.wordTerm (token.span.moved move) token.lexeme) false) =
        (reader.begin (.term (Last.wordTerm token.span token.lexeme) false)).moved move :=
    begin_moved reader rfl
  rcases reader with ⟨finished, last⟩
  cases last with
  | blank blank => rfl
  | term term spaced =>
      cases spaced with
      | false => exact begun
      | true =>
          cases words : Last.isWords term with
          | true =>
              have wordsMoved : Last.isWords (term.moved move) = true := words
              rw [takeWord_of_isWords words]
              exact takeWord_of_isWords wordsMoved
          | false =>
              have wordsMoved : Last.isWords (term.moved move) = false := words
              rw [takeWord_of_isWords_eq words, ← begun]
              exact takeWord_of_isWords_eq wordsMoved
  | _ => exact begun

theorem takePlain_moved (taken : reader.takePlain token = .ok after) :
    (reader.moved move).takePlain (token.moved move) = .ok (after.moved move) := by
  rcases token with ⟨tag, lexeme, span⟩
  cases tag with
  | blank =>
      cases taken
      exact congrArg Except.ok (takeBlank_moved reader _)
  | word =>
      cases taken
      exact congrArg Except.ok (takeWord_moved reader _)
  | eof =>
      cases taken
      rfl
  | error => cases taken
  | _ =>
      cases taken
      exact congrArg Except.ok (begin_moved reader rfl)

/-- A step does the same at another place. -/
theorem step_moved (monotone : Monotone move) (stepped : reader.step token = .ok after) :
    (reader.moved move).step (token.moved move) = .ok (after.moved move) := by
  rcases reader with ⟨finished, last⟩
  cases last with
  | sigil subject sigil =>
      simp only [step] at stepped
      split at stepped
      · next text =>
          cases stepped
          have textMoved : (token.moved move).tag ∈ sigilText := text
          simp [step, moved, Last.moved, textMoved, Last.sigilTerm_moved monotone]
      · cases stepped
  | _ => exact takePlain_moved stepped

/-- A run does the same at another place. -/
theorem Reads.moved {tokens : List (Token Tag)} (monotone : Monotone move)
    (reads : reader.Reads tokens after) :
    (reader.moved move).Reads (tokens.map (Token.moved move)) (after.moved move) := by
  induction tokens generalizing reader with
  | nil =>
      obtain rfl := reads_nil_iff.1 reads
      exact reads_nil_iff.2 rfl
  | cons token tokens ih =>
      rcases reads_cons_iff.1 reads with ⟨middle, stepped, later⟩
      exact reads_cons_iff.2 ⟨_, step_moved monotone stepped, ih later⟩

theorem finish_moved (monotone : Monotone move) (reader : Reader) (mark : Token Tag) :
    (reader.moved move).finish (mark.moved move) =
      (reader.finish mark).map (Term.moved move) := by
  rcases reader with ⟨finished, last⟩
  cases last with
  | sigil subject sigil => simp [finish, moved, Last.moved, Last.sigilTerm_moved monotone]
  | _ =>
      simp only [finish, moved, List.map_append, ← Last.close_moved]
      rfl

end Reader

end SearchQuery.Search
