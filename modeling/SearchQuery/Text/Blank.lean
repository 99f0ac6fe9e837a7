/-!
# Blank and control characters

Two classes of characters decide where a query or a search text is cut: blank
characters, which separate and carry no meaning, and control characters, which
no search text may hold.  Both are closed sets of the character standard, so
they are given here by their ranges.  The classes overlap: a tab is blank and
is also a control character.
-/

namespace SearchQuery.Text

/-- The characters with the property `White_Space`: 25 of them, in ten ranges. -/
def isBlank (c : Char) : Bool :=
  ('\t' ≤ c && c ≤ '\r') || c == ' ' || c == '\u0085' || c == '\u00a0' || c == '\u1680' ||
    ('\u2000' ≤ c && c ≤ '\u200a') || c == '\u2028' || c == '\u2029' || c == '\u202f' ||
    c == '\u205f' || c == '\u3000'

/-- The control characters: the two blocks below the space and after the tilde. -/
def isControl (c : Char) : Bool :=
  c < ' ' || ('\u007f' ≤ c && c ≤ '\u009f')

/-- The text without the blank characters at its two ends. -/
def trim (text : List Char) : List Char :=
  ((text.dropWhile isBlank).reverse.dropWhile isBlank).reverse

end SearchQuery.Text
