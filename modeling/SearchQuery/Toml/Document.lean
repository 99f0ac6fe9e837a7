import SearchQuery.Toml.Word

/-!
# Reading TOML documents

A document is read line by line: assignments, headers, comments and empty lines.
Arrays and the two long forms of quoted text may run over several lines.  Arrays
and tables in braces lie in each other up to a fixed depth, and a dotted key has
a limited number of parts.

A document that starts with a byte order mark is read without it, and a line
break may be written with a carriage return.  Reading says only whether a
document has a fault, not which.
-/

namespace SearchQuery.Toml

open Text

/-- How deep arrays and tables in braces may lie in each other. -/
def depthLimit : Nat :=
  79

/-- How many parts a dotted key may have. -/
def keyLimit : Nat :=
  79

/-- The text behind the blanks at its start. -/
def skipSpaces (text : List Char) : List Char :=
  text.dropWhile isSpace

/-- The text behind blanks and a comment. -/
def skipComment (text : List Char) : List Char :=
  match skipSpaces text with
  | '#' :: rest => rest.dropWhile isPlain
  | rest => rest

/-- The text of the next line, if only blanks and a comment are left on this one. -/
def nextLine? (text : List Char) : Option (List Char) :=
  match skipComment text with
  | [] => some []
  | '\n' :: rest => some rest
  | _ => none

/-- The text behind blanks, comments and line breaks. -/
def skipLayout (text : List Char) : List Char :=
  let round := fun (_ : Unit) (text : List Char) => match skipComment text with
    | '\n' :: rest => some (.next () rest)
    | rest => some (.last () rest)
  ((rounds round () text).map Prod.snd).getD []

/-- The text behind a character that has to come next. -/
def expect? (c : Char) : List Char → Option (List Char)
  | [] => none
  | first :: rest => if first = c then some rest else none

namespace Key

/-- The characters of a part of a key that is not quoted. -/
def isBare (c : Char) : Bool :=
  c.isAlphanum || c == '-' || c == '_'

/-- One part of a key. -/
def part? : List Char → Option (String × List Char)
  | '"' :: rest => Quoted.basic? rest
  | '\'' :: rest => Quoted.literal? rest
  | text =>
      let (name, rest) := text.span isBare
      if name.isEmpty then none else some (String.ofList name, rest)

/-- One round of a dotted key: a part with blanks round it. -/
def round (parts : List String) (text : List Char) : Option (Round (List String)) := do
  let (part, rest) ← part? (skipSpaces text)
  match skipSpaces rest with
  | '.' :: rest => return .next (parts ++ [part]) rest
  | rest => return .last (parts ++ [part]) rest

/-- A dotted key: the path, the last part, and the text behind the key. -/
def read? (text : List Char) : Option (List String × String × List Char) := do
  let (parts, rest) ← rounds round [] text
  if keyLimit < parts.length then none
  let key ← parts.getLast?
  return (parts.dropLast, key, rest)

end Key

/-- A reader of a value at the start of a text. -/
abbrev ValueReader :=
  List Char → Option (Value × List Char)

/-- A key, its value, and the text behind them. -/
def assignment? (value? : ValueReader) (text : List Char) :
    Option (Assignment × List Char) := do
  let (path, key, rest) ← Key.read? text
  let rest ← expect? '=' rest
  let (value, rest) ← value? (skipSpaces rest)
  return (⟨path, key, value⟩, rest)

/-- One round of an array: an item with the comma behind it, or the end. -/
def arrayRound (value? : ValueReader) (items : List Value) (text : List Char) :
    Option (Round (List Value)) :=
  match skipLayout text with
  | ']' :: rest => some (.last items rest)
  | text => do
      let (item, rest) ← value? text
      match skipLayout rest with
      | ',' :: rest => return .next (items ++ [item]) rest
      | ']' :: rest => return .last (items ++ [item]) rest
      | _ => none

/-- One round of a table in braces: an assignment with what stands behind it. -/
def bracesRound (value? : ValueReader) (assignments : List Assignment) (text : List Char) :
    Option (Round (List Assignment)) := do
  let (assignment, rest) ← assignment? value? text
  match skipSpaces rest with
  | ',' :: rest => return .next (assignments ++ [assignment]) rest
  | '\x7d' :: rest => return .last (assignments ++ [assignment]) rest
  | _ => none

/-- The assignments in braces, behind the opening one. -/
def braces? (value? : ValueReader) (text : List Char) :
    Option (List Assignment × List Char) :=
  match skipSpaces text with
  | '\x7d' :: rest => some ([], rest)
  | text => rounds (bracesRound value?) [] text

/-- A value that holds no other values. -/
def simple? : ValueReader
  | '"' :: '"' :: '"' :: rest => (Quoted.basicLines? rest).map fun (text, rest) =>
      (.string text, rest)
  | '"' :: rest => (Quoted.basic? rest).map fun (text, rest) => (.string text, rest)
  | '\'' :: '\'' :: '\'' :: rest => (Quoted.literalLines? rest).map fun (text, rest) =>
      (.string text, rest)
  | '\'' :: rest => (Quoted.literal? rest).map fun (text, rest) => (.string text, rest)
  | text => Word.read? text

/-- A value that other values lie in up to this depth. -/
def value? : (depth : Nat) → ValueReader
  | 0, text => simple? text
  | depth + 1, text =>
      match text with
      | '[' :: rest => (rounds (arrayRound (value? depth)) [] rest).map fun (items, rest) =>
          (.array items, rest)
      | '\x7b' :: rest => do
          let (assignments, rest) ← braces? (value? depth) rest
          let table ← Table.assignAll? assignments []
          return (.table .braces table, rest)
      | text => simple? text

/-- A line that is not empty: an assignment or a header. -/
inductive Line
  | assignment (line : Assignment)
  | header (line : Header)

namespace Line

/-- A header behind its first bracket. -/
def header? : List Char → Option (Header × List Char)
  | '[' :: rest => do
      let (path, key, rest) ← Key.read? rest
      let rest ← expect? ']' (← expect? ']' rest)
      return (⟨true, path, key⟩, rest)
  | text => do
      let (path, key, rest) ← Key.read? text
      let rest ← expect? ']' rest
      return (⟨false, path, key⟩, rest)

/-- A line that is not empty, and the text of the lines after it. -/
def read? (text : List Char) : Option (Line × List Char) :=
  match text with
  | '[' :: rest => do
      let (line, rest) ← header? rest
      return (.header line, ← nextLine? rest)
  | text => do
      let (line, rest) ← assignment? (value? depthLimit) text
      return (.assignment line, ← nextLine? rest)

/-- One round of a document: a line. -/
def round (lines : List Line) (text : List Char) : Option (Round (List Line)) :=
  match skipSpaces text with
  | [] => some (.last lines [])
  | '\n' :: rest => some (.next lines rest)
  | '#' :: rest => (nextLine? ('#' :: rest)).map fun rest => .next lines rest
  | text => (read? text).map fun (line, rest) => .next (lines ++ [line]) rest

/-- The assignments before the first header, and the sections. -/
def sections (lines : List Line) : List Assignment × List Section :=
  lines.foldr (fun line (assignments, parts) => match line with
    | assignment line => (line :: assignments, parts)
    | header line => ([], ⟨line, assignments⟩ :: parts)) ([], [])

end Line

/-- Line breaks without carriage returns. -/
def joinLineBreaks : List Char → List Char
  | [] => []
  | '\r' :: '\n' :: rest => '\n' :: joinLineBreaks rest
  | c :: rest => c :: joinLineBreaks rest

/-- The text without a byte order mark at its start. -/
def dropMark : List Char → List Char
  | '\ufeff' :: rest => rest
  | text => text

namespace Table

/-- Reads a document. -/
def read? (text : String) : Option Table := do
  let (lines, _) ← rounds Line.round [] (joinLineBreaks (dropMark text.toList))
  let (assignments, parts) := Line.sections lines
  ofSections? assignments parts

end Table

end SearchQuery.Toml
