import SearchQuery.Number.Binary64
import SearchQuery.Number.Integer

/-!
# Decimal numerals

A decimal is a natural coefficient with a power of ten.  This module reads
decimals and the names of the special values from text, rounds a decimal to the
binary64 format, and finds the shortest decimal that rounds to a given
magnitude.

The text of a number in plain notation holds all its digits, so it never needs
an exponent.  A shortest decimal is one with the fewest digits among those that
round to the number, and of several the nearest.  Two of them can be equally
near; the kind of text that is written decides which one is taken.
-/

namespace SearchQuery.Number

/-- The number `coefficient * 10 ^ exponent`. -/
structure Decimal where
  coefficient : Nat
  exponent : Int
  deriving DecidableEq

namespace Decimal

/-- The binary64 magnitude nearest to the decimal; none if it is too large.

The two cases in the middle only spare the arithmetic with huge powers of ten:
a positive coefficient with an exponent above 310 is too large for the format,
and a coefficient of `k` binary digits with an exponent below `-(330 + k)` is
less than half of the smallest magnitude. -/
def magnitude? (d : Decimal) : Option Magnitude :=
  if d.coefficient = 0 then some .zero
  else if 310 < d.exponent then none
  else if d.exponent < -(331 + (d.coefficient.log2 : Int)) then some .zero
  else
    Magnitude.round? (d.coefficient * Nat.pow 10 d.exponent.toNat * Nat.pow 2 1074)
      (Nat.pow 10 (-d.exponent).toNat)

/-- The same number with no zero at the end of its coefficient. -/
def dropZeros (d : Decimal) : Decimal :=
  if positive : 0 < d.coefficient then
    if d.coefficient % 10 = 0 then dropZeros ⟨d.coefficient / 10, d.exponent + 1⟩ else d
  else ⟨0, 0⟩
termination_by d.coefficient
decreasing_by exact Nat.div_lt_self positive (by decide)

/-- The exponent of the first digit. -/
def order (d : Decimal) : Int :=
  d.exponent + ((Nat.toDigits 10 d.coefficient).length - 1 : Nat)

/-- All digits of the decimal in plain notation, with a point only before a
fraction and at least one digit before the point. -/
def plainText (d : Decimal) : List Char :=
  if 0 ≤ d.exponent then Nat.toDigits 10 (d.coefficient * Nat.pow 10 d.exponent.toNat)
  else
    let places := (-d.exponent).toNat
    let digits := Nat.toDigits 10 d.coefficient
    let padded := List.replicate (places + 1 - digits.length) '0' ++ digits
    padded.take (padded.length - places) ++ '.' :: padded.drop (padded.length - places)

/-- The exponent part of a numeral: nothing, or the letter and an integer. -/
def exponent? : List Char → Option Int
  | [] => some 0
  | letter :: rest => if letter = 'e' ∨ letter = 'E' then integer? rest else none

/-- The digits after the point, if a point comes first, and what follows. -/
def fraction : List Char → List Char × List Char
  | '.' :: rest => rest.span Char.isDigit
  | rest => ([], rest)

/-- Reads a numeral without sign: digits with at most one point among them, at
least one digit, and an optional exponent part. -/
def read? (text : List Char) : Option Decimal :=
  let (whole, rest) := text.span Char.isDigit
  let (places, rest) := fraction rest
  if whole = [] ∧ places = [] then none
  else (exponent? rest).map fun e =>
    ⟨Nat.ofDigitChars 10 (whole ++ places) 0, e - places.length⟩

end Decimal

/-- Which of two equally near decimals is taken: the larger one, or the one with
an even last digit. -/
inductive Tie
  | larger
  | even
  deriving DecidableEq

/-- Whether `n` is rounded down to a multiple of `unit`. -/
def Tie.takesLower (tie : Tie) (n unit : Nat) : Bool :=
  2 * (n % unit) < unit ||
    tie == .even && 2 * (n % unit) == unit && n / unit % 2 == 0

namespace Magnitude

/-- The decimal of exactly this value: `2 ^ -1074` is `5 ^ 1074` units of
`10 ^ -1074`. -/
def exact (x : Magnitude) : Decimal :=
  ⟨x.units * Nat.pow 5 1074, -1074⟩

/-- The two neighbours of the value among the decimals that leave out the last
`dropped` digits of the exact one, the nearer one first; of two equally near ones
the tie says which. -/
def neighbours (tie : Tie) (x : Magnitude) (dropped : Nat) : List Decimal :=
  let coefficient := x.exact.coefficient
  let unit := Nat.pow 10 dropped
  let below : Decimal := ⟨coefficient / unit, (dropped : Int) - 1074⟩
  let above : Decimal := ⟨coefficient / unit + 1, (dropped : Int) - 1074⟩
  if tie.takesLower coefficient unit then [below.dropZeros, above.dropZeros]
  else [above.dropZeros, below.dropZeros]

/-- The shortest decimal that rounds to the magnitude.  Seventeen digits are
enough for every magnitude; the exact decimal stands behind them so that the
answer rounds back whatever the search finds. -/
def shortest (tie : Tie) (x : Magnitude) : Decimal :=
  let length := (Nat.toDigits 10 x.exact.coefficient).length
  (((List.range 17).flatMap fun n => x.neighbours tie (length - (n + 1))).find?
    fun d => d.magnitude? = some x).getD x.exact

end Magnitude

namespace Binary64

/-- The number with this sign that is nearest to the decimal; too large a
decimal gives an infinity. -/
def ofDecimal (negative : Bool) (d : Decimal) : Binary64 :=
  match d.magnitude? with
  | some x => finite negative x
  | none => infinite negative

/-- Reads a number without sign: a numeral, or one of the names `inf`,
`infinity` and `nan` in any mixture of cases. -/
def unsigned? (negative : Bool) (text : List Char) : Option Binary64 :=
  let name := String.ofList (text.map Char.toLower)
  if name = "inf" ∨ name = "infinity" then some (infinite negative)
  else if name = "nan" then some nan
  else (Decimal.read? text).map (ofDecimal negative)

/-- Reads a number with an optional sign. -/
def read? : List Char → Option Binary64
  | '-' :: rest => unsigned? true rest
  | '+' :: rest => unsigned? false rest
  | rest => unsigned? false rest

/-- The text of a number with a minus sign if it is negative. -/
def signed (negative : Bool) (text : List Char) : List Char :=
  if negative then '-' :: text else text

/-- The plain text of a number: its shortest digits without exponent, and a
sign before every negative number, zero included. -/
def plainText : Binary64 → List Char
  | nan => ['N', 'a', 'N']
  | infinite negative => signed negative ['i', 'n', 'f']
  | finite negative x => signed negative (x.shortest .larger).plainText

end Binary64

end SearchQuery.Number
