import SearchQuery.Text.Span

/-!
# A caret below a position

A fault in a text is shown by the line in which it lies and, on the line below, a
caret under the place.  Positions are counted in bytes and the caret is placed by
characters.  A position behind the text stands for its end, and so does one
inside a character.
-/

namespace SearchQuery.Text

/-- The text before and behind a position; none if the position lies inside a
character or behind the text. -/
def splitAt? : (position : Nat) → List Char → Option (List Char × List Char)
  | 0, text => some ([], text)
  | _ + 1, [] => none
  | position + 1, c :: rest =>
      if c.utf8Size ≤ position + 1 then
        (splitAt? (position + 1 - c.utf8Size) rest).map fun (before, behind) =>
          (c :: before, behind)
      else none

/-- The text behind the last line break. -/
def lastLine (text : List Char) : List Char :=
  (text.reverse.takeWhile (· != '\n')).reverse

/-- The text before the first line break. -/
def firstLine (text : List Char) : List Char :=
  text.takeWhile (· != '\n')

/-- The line with a position and a line with a caret below it. -/
def caret (text : String) (position : Nat) : String :=
  let (before, behind) := (splitAt? position text.toList).getD (text.toList, [])
  String.ofList (lastLine before ++ firstLine behind) ++ "\n" ++
    "".pushn ' ' (lastLine before).length ++ "^"

theorem append_of_splitAt? {position : Nat} {text before behind : List Char}
    (split : splitAt? position text = some (before, behind)) : before ++ behind = text := by
  fun_induction splitAt? position text generalizing before behind with
  | case1 text =>
      cases split
      rfl
  | case2 => cases split
  | case3 position c rest fits ih =>
      obtain ⟨⟨before', behind'⟩, found, eq⟩ := Option.map_eq_some_iff.1 split
      cases eq
      rw [List.cons_append, ih found]
  | case4 => cases split

theorem width_of_splitAt? {position : Nat} {text before behind : List Char}
    (split : splitAt? position text = some (before, behind)) : width before = position := by
  fun_induction splitAt? position text generalizing before behind with
  | case1 text =>
      cases split
      rfl
  | case2 => cases split
  | case3 position c rest fits ih =>
      obtain ⟨⟨before', behind'⟩, found, eq⟩ := Option.map_eq_some_iff.1 split
      cases eq
      rw [width_cons, ih found]
      omega
  | case4 => cases split

end SearchQuery.Text
