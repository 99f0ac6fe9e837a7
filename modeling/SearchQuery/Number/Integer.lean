/-!
# Integers of 64 bits

Integers are written in decimal with an optional sign.  Reading refuses a text
with no digit and a number outside the 64-bit range; it never wraps.
-/

namespace SearchQuery.Number

/-- A natural number from a text that holds at least one digit and nothing else. -/
def natural? (text : List Char) : Option Nat :=
  if text ≠ [] ∧ text.all Char.isDigit then some (Nat.ofDigitChars 10 text 0) else none

/-- An integer from a text of digits with an optional sign in front. -/
def integer? : List Char → Option Int
  | '-' :: digits => (natural? digits).map fun n => -(n : Int)
  | '+' :: digits => (natural? digits).map fun n => (n : Int)
  | digits => (natural? digits).map fun n => (n : Int)

namespace Integer

/-- The 64-bit integer with this value, if there is one. -/
def ofInt? (n : Int) : Option Int64 :=
  if Int64.minValue.toInt ≤ n ∧ n ≤ Int64.maxValue.toInt then some (Int64.ofInt n) else none

/-- Reads a 64-bit integer. -/
def read? (text : List Char) : Option Int64 :=
  (integer? text).bind ofInt?

/-- The decimal text of an integer: no sign in front of a number that is not
negative, and no leading zero. -/
def text : Int → List Char
  | .ofNat n => Nat.toDigits 10 n
  | .negSucc n => '-' :: Nat.toDigits 10 (n + 1)

end Integer

end SearchQuery.Number
