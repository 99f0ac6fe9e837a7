import SearchQuery.Number.Decimal
import SearchQuery.Toml.Quoted
import SearchQuery.Toml.Table

/-!
# Unquoted TOML values

Truth values, numbers, dates and times are written without quotes and without
blanks in them, so a run of the characters that they are made of is one value or
none; only a date may have a blank between it and its time.
-/

namespace SearchQuery.Toml

open Number

/-- The characters of unquoted values. -/
def isWordPart (c : Char) : Bool :=
  c.isAlphanum || c == '+' || c == '-' || c == '_' || c == '.' || c == ':'

namespace Word

/-- Takes the sign off a number: whether it is negative, and the rest. -/
def unsigned : List Char → Bool × List Char
  | '-' :: rest => (true, rest)
  | '+' :: rest => (false, rest)
  | rest => (false, rest)

/-- The digits of a number without the underscores between them.  There is at
least one digit, and an underscore has a digit on both sides. -/
def digits? (isDigit : Char → Bool) : List Char → Option (List Char)
  | [] => none
  | [c] => if isDigit c then some [c] else none
  | c :: '_' :: rest => if isDigit c then (digits? isDigit rest).map (c :: ·) else none
  | c :: rest => if isDigit c then (digits? isDigit rest).map (c :: ·) else none

/-- The digits of a whole number in decimal, which has no leading zero. -/
def wholeDigits? (text : List Char) : Option (List Char) :=
  match digits? Char.isDigit text with
  | some ('0' :: _ :: _) => none
  | digits => digits

/-- The number with these digits in a base of at most sixteen. -/
def ofDigits (base : Nat) (digits : List Char) : Nat :=
  digits.foldl (fun n c => base * n + (Quoted.hexDigit? c).getD 0) 0

/-- Whether the character is a digit in this base. -/
def isDigitIn (base : Nat) (c : Char) : Bool :=
  match Quoted.hexDigit? c with
  | some value => value < base
  | none => false

/-- A number in another base, which has no sign. -/
def based? (base : Nat) (text : List Char) : Option Int :=
  (digits? (isDigitIn base) text).map fun digits => ofDigits base digits

/-- An integer that is not limited in size. -/
def whole? : List Char → Option Int
  | '0' :: 'x' :: rest => based? 16 rest
  | '0' :: 'o' :: rest => based? 8 rest
  | '0' :: 'b' :: rest => based? 2 rest
  | text =>
      let (negative, rest) := unsigned text
      (wholeDigits? rest).map fun digits =>
        let n : Int := ofDigits 10 digits
        if negative then -n else n

/-- The digits after the point; there are none if there is no point. -/
def places? : List Char → Option (List Char)
  | [] => some []
  | '.' :: rest => digits? Char.isDigit rest
  | _ => none

/-- The exponent; it is zero if it is not written. -/
def exponent? : List Char → Option Int
  | [] => some 0
  | _ :: rest =>
      let (negative, rest) := unsigned rest
      (digits? Char.isDigit rest).map fun digits =>
        let n : Int := ofDigits 10 digits
        if negative then -n else n

/-- A decimal number with a point or an exponent. -/
def decimal? (text : List Char) : Option Decimal := do
  let (mantissa, power) := text.span fun c => c != 'e' && c != 'E'
  let (whole, fraction) := mantissa.span (· != '.')
  if fraction = [] ∧ power = [] then none
  let whole ← wholeDigits? whole
  let places ← places? fraction
  let exponent ← exponent? power
  return ⟨ofDigits 10 (whole ++ places), exponent - places.length⟩

/-- A float.  A number may not be too large for the format unless it is negative. -/
def float? (text : List Char) : Option Binary64 :=
  let (negative, rest) := unsigned text
  if rest = ['i', 'n', 'f'] then some (.infinite negative)
  else if rest = ['n', 'a', 'n'] then some .nan
  else
    match (decimal? rest).map (Binary64.ofDecimal negative) with
    | some (.infinite false) => none
    | number? => number?

/-- Whether the text is a number of exactly `count` digits within these limits. -/
def isCount (count low high : Nat) (text : List Char) : Bool :=
  text.length == count &&
    match natural? text with
    | some n => low ≤ n && n ≤ high
    | none => false

/-- How many days a month has. -/
def daysIn (year month : Nat) : Nat :=
  if month = 2 then if year % 4 = 0 ∧ (year % 100 ≠ 0 ∨ year % 400 = 0) then 29 else 28
  else if month ∈ [4, 6, 9, 11] then 30
  else 31

/-- Whether the text is a date. -/
def isDate : List Char → Bool
  | [a, b, c, d, '-', e, f, '-', g, h] =>
      match natural? [a, b, c, d], natural? [e, f] with
      | some year, some month =>
          1 ≤ month && month ≤ 12 && isCount 2 1 (daysIn year month) [g, h]
      | _, _ => false
  | _ => false

/-- Whether the text is an offset from universal time, or none. -/
def isOffset : List Char → Bool
  | [] => true
  | ['Z'] => true
  | ['z'] => true
  | [sign, a, b, ':', c, d] =>
      (sign == '+' || sign == '-') && isCount 2 0 23 [a, b] && isCount 2 0 59 [c, d]
  | _ => false

/-- What follows a fraction of a second, if there is one. -/
def afterFraction : List Char → List Char
  | '.' :: c :: rest => if c.isDigit then rest.dropWhile Char.isDigit else '.' :: c :: rest
  | rest => rest

/-- Whether the text is a time whose remainder, behind the seconds, has a certain
form. -/
def isTime (isRemainder : List Char → Bool) : List Char → Bool
  | a :: b :: ':' :: c :: d :: ':' :: e :: f :: rest =>
      isCount 2 0 23 [a, b] && isCount 2 0 59 [c, d] && isCount 2 0 60 [e, f] &&
        isRemainder (afterFraction rest)
  | _ => false

/-- Whether the text is a time behind a date. -/
def isDatedTime : List Char → Bool :=
  isTime isOffset

/-- Whether the text is a date, a time, or a date and a time. -/
def isDateTime (text : List Char) : Bool :=
  isTime List.isEmpty text ||
    isDate (text.take 10) &&
      match text.drop 10 with
      | [] => true
      | letter :: time => (letter == 'T' || letter == 't') && isDatedTime time

/-- The value of an unquoted text. -/
def value? (text : List Char) : Option Value :=
  if text = ['t', 'r', 'u', 'e'] then some (.bool true)
  else if text = ['f', 'a', 'l', 's', 'e'] then some (.bool false)
  else if isDateTime text then some .dateTime
  else
    match whole? text with
    | some n => (Integer.ofInt? n).map .int
    | none => (float? text).map .float

/-- An unquoted value at the start of a text, and the text behind it. -/
def read? (text : List Char) : Option (Value × List Char) :=
  let (word, rest) := text.span isWordPart
  match rest with
  | ' ' :: c :: more =>
      if isDate word && c.isDigit then
        let (time, rest) := (c :: more).span isWordPart
        if isDatedTime time then some (.dateTime, rest) else none
      else (value? word).map fun value => (value, rest)
  | _ => (value? word).map fun value => (value, rest)

end Word

end SearchQuery.Toml
