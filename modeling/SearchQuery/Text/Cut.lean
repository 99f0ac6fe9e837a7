import SearchQuery.Text.Span

/-!
# Cutting a text into pieces

A scanner is given by its answer for one piece: from the first character and
the characters after it, the kind of the piece that starts there and how many
further characters belong to it.  `cut` repeats that answer to the end of the
text, and `locate` gives every piece the position at which it starts.

No character is lost, repeated or moved (`flatMap_text_cut`), and no piece is
empty (`text_ne_nil_of_mem_cut`), whatever the answer for one piece is.
-/

namespace SearchQuery.Text

universe u

/-- A piece of a text together with its kind. -/
structure Piece (κ : Type u) where
  kind : κ
  text : List Char

variable {κ : Type u}

/-- Cuts a text into pieces.  `head c rest` tells the kind of the piece that
starts at the character `c` and how many characters of `rest` belong to it. -/
def cut (head : Char → List Char → κ × Nat) : List Char → List (Piece κ)
  | [] => []
  | c :: rest =>
      ⟨(head c rest).1, c :: rest.take (head c rest).2⟩ :: cut head (rest.drop (head c rest).2)
termination_by text => text.length
decreasing_by simp only [List.length_cons, List.length_drop]; omega

@[simp]
theorem cut_nil (head : Char → List Char → κ × Nat) : cut head [] = [] := by
  rw [cut]

theorem cut_cons (head : Char → List Char → κ × Nat) (c : Char) (rest : List Char) :
    cut head (c :: rest) =
      ⟨(head c rest).1, c :: rest.take (head c rest).2⟩ ::
        cut head (rest.drop (head c rest).2) := by
  rw [cut]

/-- The pieces, put together again, are the text. -/
theorem flatMap_text_cut (head : Char → List Char → κ × Nat) (text : List Char) :
    (cut head text).flatMap Piece.text = text := by
  fun_induction cut head text with
  | case1 => rfl
  | case2 c rest ih => simp [ih]

/-- Every piece holds at least one character. -/
theorem text_ne_nil_of_mem_cut {head : Char → List Char → κ × Nat} {text : List Char}
    {piece : Piece κ} (mem : piece ∈ cut head text) : piece.text ≠ [] := by
  fun_induction cut head text with
  | case1 => cases mem
  | case2 c rest ih =>
      cases mem with
      | head => simp
      | tail _ later => exact ih later

/-- The pieces with the positions at which they start, the first at `start`. -/
def locate (start : Nat) : List (Piece κ) → List (Nat × Piece κ)
  | [] => []
  | piece :: rest => (start, piece) :: locate (start + width piece.text) rest

@[simp]
theorem locate_nil (start : Nat) : locate start ([] : List (Piece κ)) = [] :=
  rfl

@[simp]
theorem locate_cons (start : Nat) (piece : Piece κ) (rest : List (Piece κ)) :
    locate start (piece :: rest) = (start, piece) :: locate (start + width piece.text) rest :=
  rfl

end SearchQuery.Text
