import SearchQuery.Text.Rounds

/-!
# Quoted text in TOML

There are four forms of quoted text: between quotes with escapes or between
apostrophes as it stands, each on one line or, with the delimiter written three
times, over several lines.  A text over several lines leaves out a line break
right after its opening delimiter, may end in up to two delimiter characters of
its own, and, if it has escapes, joins lines by a backslash at their end.

The readers here start behind the opening delimiter and take the closing one.
-/

namespace SearchQuery.Toml

open Text

/-- The characters that text may hold: all but control characters, of which only
the tab is allowed, and the delete character. -/
def isPlain (c : Char) : Bool :=
  c == '\t' || (' ' ≤ c && c != '\x7f')

/-- Blanks within a line. -/
def isSpace (c : Char) : Bool :=
  c == ' ' || c == '\t'

/-- Blanks and line breaks. -/
def isLayout (c : Char) : Bool :=
  isSpace c || c == '\n'

namespace Quoted

/-- The character for which a letter after a backslash stands. -/
def letter? (c : Char) : Option Char :=
  match c with
  | 'b' => some '\x08'
  | 't' => some '\t'
  | 'n' => some '\n'
  | 'f' => some '\x0c'
  | 'r' => some '\r'
  | '"' => some '"'
  | '\\' => some '\\'
  | _ => none

/-- The value of a digit in base sixteen. -/
def hexDigit? (c : Char) : Option Nat :=
  if c.isDigit then some (c.toNat - '0'.toNat)
  else if 'a' ≤ c ∧ c ≤ 'f' then some (c.toNat - 'a'.toNat + 10)
  else if 'A' ≤ c ∧ c ≤ 'F' then some (c.toNat - 'A'.toNat + 10)
  else none

/-- The number with these digits in base sixteen. -/
def hex? (digits : List Char) : Option Nat :=
  digits.foldlM (fun n c => (hexDigit? c).map (16 * n + ·)) 0

/-- The character with this code point, if it is the code point of a character. -/
def ofCodePoint? (n : Nat) : Option Char :=
  if n < 0xd800 ∨ (0xdfff < n ∧ n < 0x110000) then some (Char.ofNat n) else none

/-- The character with a code point of `count` digits, and the text behind it. -/
def codePoint? (count : Nat) (text : List Char) : Option (Char × List Char) :=
  if count ≤ text.length then
    ((hex? (text.take count)).bind ofCodePoint?).map fun c => (c, text.drop count)
  else none

/-- The character for an escape behind its backslash, and the text behind it. -/
def escape? : List Char → Option (Char × List Char)
  | [] => none
  | 'u' :: rest => codePoint? 4 rest
  | 'U' :: rest => codePoint? 8 rest
  | c :: rest => (letter? c).map fun c => (c, rest)

/-- One round of a text with escapes on one line. -/
def basicRound (text : String) : List Char → Option (Round String)
  | [] => none
  | '"' :: rest => some (.last text rest)
  | '\\' :: rest => (escape? rest).map fun (c, rest) => .next (text.push c) rest
  | c :: rest => if isPlain c then some (.next (text.push c) rest) else none

/-- A text with escapes on one line. -/
def basic? (text : List Char) : Option (String × List Char) :=
  rounds basicRound "" text

/-- A text as it stands on one line. -/
def literal? (text : List Char) : Option (String × List Char) :=
  match text.span fun c => isPlain c && c != '\'' with
  | (inner, '\'' :: rest) => some (String.ofList inner, rest)
  | _ => none

/-- The end of a text over several lines, behind three delimiter characters: up to
two more before them belong to the text. -/
def close? (delimiter : Char) (text : String) (rest : List Char) : Option (Round String) :=
  let more := rest.takeWhile (· == delimiter)
  if more.length ≤ 2 then some (.last (text ++ String.ofList more) (rest.drop more.length))
  else none

/-- Whether nothing but blanks is left on the line. -/
def endsLine (rest : List Char) : Bool :=
  (rest.dropWhile isSpace).head? == some '\n'

/-- One round of a text with escapes over several lines. -/
def basicLinesRound (text : String) : List Char → Option (Round String)
  | [] => none
  | '"' :: '"' :: '"' :: rest => close? '"' text rest
  | '\\' :: rest =>
      if endsLine rest then some (.next text (rest.dropWhile isLayout))
      else (escape? rest).map fun (c, rest) => .next (text.push c) rest
  | c :: rest =>
      if isPlain c || c == '\n' then some (.next (text.push c) rest) else none

/-- One round of a text as it stands over several lines. -/
def literalLinesRound (text : String) : List Char → Option (Round String)
  | [] => none
  | '\'' :: '\'' :: '\'' :: rest => close? '\'' text rest
  | c :: rest =>
      if isPlain c || c == '\n' then some (.next (text.push c) rest) else none

/-- The text without a line break at its start. -/
def dropLineBreak : List Char → List Char
  | '\n' :: rest => rest
  | text => text

/-- A text with escapes over several lines. -/
def basicLines? (text : List Char) : Option (String × List Char) :=
  rounds basicLinesRound "" (dropLineBreak text)

/-- A text as it stands over several lines. -/
def literalLines? (text : List Char) : Option (String × List Char) :=
  rounds literalLinesRound "" (dropLineBreak text)

end Quoted

end SearchQuery.Toml
