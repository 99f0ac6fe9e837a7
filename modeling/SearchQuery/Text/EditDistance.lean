/-!
# Edit distance

The edit distance of two texts is the least number of characters to insert, to
delete or to replace that turns one into the other.  It is computed row by row:
each row holds the distances between one beginning of the first text and all
endings of the second that start at a given place, longest ending first.
-/

namespace SearchQuery.Text

/-- The row for no characters of the first text: each ending of the second takes
its length. -/
def emptyRow : List Char → List Nat
  | [] => [0]
  | _ :: target => (target.length + 1) :: emptyRow target

/-- The row for one more character `c` in front of the first text, from the row
without it. -/
def nextRow (c : Char) : List Char → List Nat → List Nat
  | d :: target, here :: next :: row =>
      let below := nextRow c target (next :: row)
      (if c = d then next
        else 1 + min next (min here (below.headD 0))) :: below
  | _, row => row.map (· + 1)

/-- The row for all characters of the first text. -/
def distanceRow (target : List Char) : List Char → List Nat
  | [] => emptyRow target
  | c :: source => nextRow c target (distanceRow target source)

/-- The edit distance of two texts, counted in characters. -/
def editDistance (source target : List Char) : Nat :=
  (distanceRow target source).headD 0

end SearchQuery.Text
