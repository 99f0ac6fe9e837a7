/-!
# Widths and spans

Positions in a text are counted in bytes of its UTF-8 encoding.  The width of a
run of characters is therefore the sum of the widths of its characters, and a
span is the half-open range of positions that a piece of text covers.
-/

namespace SearchQuery.Text

/-- The number of bytes that the characters take. -/
def width (text : List Char) : Nat :=
  text.foldr (fun c bytes => c.utf8Size + bytes) 0

@[simp]
theorem width_nil : width [] = 0 :=
  rfl

@[simp]
theorem width_cons (c : Char) (text : List Char) :
    width (c :: text) = c.utf8Size + width text :=
  rfl

@[simp]
theorem width_append (text rest : List Char) :
    width (text ++ rest) = width text + width rest := by
  induction text with
  | nil => simp
  | cons c text ih => simp [ih, Nat.add_assoc]

/-- A run of characters that is not empty takes at least one byte. -/
theorem width_pos {text : List Char} (nonempty : text ≠ []) : 0 < width text := by
  cases text with
  | nil => exact absurd rfl nonempty
  | cons c text =>
      rw [width_cons]
      exact Nat.add_pos_left c.utf8Size_pos _

/-- The positions from `start` up to, and not including, `stop`. -/
structure Span where
  start : Nat
  stop : Nat
  deriving DecidableEq

namespace Span

/-- The span at the start of a text that covers nothing. -/
def zero : Span :=
  ⟨0, 0⟩

/-- A span that stops where it starts, or before, covers nothing. -/
def isEmpty (span : Span) : Bool :=
  span.stop ≤ span.start

/-- The smallest span that covers both. -/
def merge (first second : Span) : Span :=
  ⟨min first.start second.start, max first.stop second.stop⟩

end Span

end SearchQuery.Text
