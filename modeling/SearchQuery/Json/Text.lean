import SearchQuery.Json.Value
import SearchQuery.Number.Decimal

/-!
# JSON text

A value is written over several lines, two spaces deeper at each level; an empty
array or object stays on one line.  Strings escape what they must and nothing
else.

A float is written with its shortest digits and always shows that it is one: in
positional notation by a point, otherwise by an exponent.  JSON has no text for
an infinity or a NaN, and `null` stands for them.
-/

namespace SearchQuery.Json

open Number

/-- Four digits in base sixteen. -/
def fourHexDigits (n : Nat) : List Char :=
  let digits := Nat.toDigits 16 n
  List.replicate (4 - digits.length) '0' ++ digits

/-- A character as it stands in a string. -/
def stringChar (c : Char) : List Char :=
  if c = '"' ∨ c = '\\' then ['\\', c]
  else if c = '\x08' then ['\\', 'b']
  else if c = '\x0c' then ['\\', 'f']
  else if c = '\n' then ['\\', 'n']
  else if c = '\r' then ['\\', 'r']
  else if c = '\t' then ['\\', 't']
  else if c < ' ' then ['\\', 'u'] ++ fourHexDigits c.toNat
  else [c]

/-- The text of a string. -/
def stringText (text : String) : String :=
  "\"" ++ String.ofList (text.toList.flatMap stringChar) ++ "\""

/-- Whether a decimal is written in positional notation, by the exponent of its
first digit. -/
def isPositional (order : Int) : Bool :=
  -5 ≤ order && order < 16

/-- An exponent with its sign. -/
def exponentText (order : Int) : List Char :=
  match order with
  | .ofNat n => 'e' :: '+' :: Nat.toDigits 10 n
  | .negSucc n => 'e' :: '-' :: Nat.toDigits 10 (n + 1)

/-- One digit before the point, the others after it, and the exponent. -/
def scientificText (d : Decimal) : List Char :=
  (match Nat.toDigits 10 d.coefficient with
    | [] => []
    | [digit] => [digit]
    | digit :: places => digit :: '.' :: places) ++ exponentText d.order

/-- Positional notation with a point. -/
def positionalText (d : Decimal) : List Char :=
  if d.exponent < 0 then d.plainText else d.plainText ++ ['.', '0']

/-- The text of a float. -/
def floatText : Binary64 → String
  | .finite negative x =>
      let d := x.shortest .even
      String.ofList (Binary64.signed negative
        (if isPositional d.order then positionalText d else scientificText d))
  | _ => "null"

/-- The start of a line at this depth. -/
def indentation (depth : Nat) : String :=
  "".pushn ' ' (2 * depth)

/-- Lines between an opening and a closing bracket. -/
def bracketed (opening closing : String) (depth : Nat) (lines : List String) : String :=
  match lines with
  | [] => opening ++ closing
  | _ :: _ =>
      opening ++ "\n" ++
        String.intercalate ",\n" (lines.map fun line => indentation (depth + 1) ++ line) ++
        "\n" ++ indentation depth ++ closing

namespace Value

mutual

/-- The text of a value whose first line stands at this depth. -/
def textAt (depth : Nat) : Value → String
  | null => "null"
  | bool true => "true"
  | bool false => "false"
  | int value => String.ofList (Integer.text value)
  | float value => floatText value
  | string text => stringText text
  | array items => bracketed "[" "]" depth (itemTexts (depth + 1) items)
  | object entries => bracketed "\x7b" "\x7d" depth (entryTexts (depth + 1) entries)

/-- The texts of the items of an array. -/
def itemTexts (depth : Nat) : List Value → List String
  | [] => []
  | item :: rest => item.textAt depth :: itemTexts depth rest

/-- The texts of the entries of an object. -/
def entryTexts (depth : Nat) : List (String × Value) → List String
  | [] => []
  | (key, value) :: rest =>
      (stringText key ++ ": " ++ value.textAt depth) :: entryTexts depth rest

end

/-- The text of a value. -/
def text (value : Value) : String :=
  value.textAt 0

end Value

end SearchQuery.Json
