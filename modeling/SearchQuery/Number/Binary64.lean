/-!
# Floating-point numbers of 64 bits

The finite numbers of the binary64 format are the integer multiples of
`2 ^ -1074` of a certain form.  A magnitude is counted in that unit, so it is a
natural number `significand * 2 ^ scale`, and the three conditions on a
magnitude give every number exactly one representation.

Rounding a quotient to the format is exact arithmetic on natural numbers: the
scale is read off the size of the quotient, and one division with the rule
"nearest, ties to even" gives the significand.  A quotient that is too large for
the format has no magnitude.
-/

namespace SearchQuery.Number

/-- An absolute value of the binary64 format, `significand * 2 ^ scale` units of
`2 ^ -1074`. -/
structure Magnitude where
  significand : Nat
  scale : Nat
  significand_lt : significand < Nat.pow 2 53
  scale_le : scale ≤ 2045
  normal : scale = 0 ∨ Nat.pow 2 52 ≤ significand
  deriving DecidableEq

/-- The quotient `n / d` rounded to the nearest natural number; of two that are
equally near, the even one. -/
def divideToNearest (n d : Nat) : Nat :=
  if 2 * (n % d) < d ∨ 2 * (n % d) = d ∧ n / d % 2 = 0 then n / d else n / d + 1

theorem le_divideToNearest (n d : Nat) : n / d ≤ divideToNearest n d := by
  unfold divideToNearest
  split
  · exact Nat.le_refl _
  · exact Nat.le_succ _

namespace Magnitude

/-- The number of units of `2 ^ -1074`. -/
def units (x : Magnitude) : Nat :=
  x.significand * Nat.pow 2 x.scale

/-- The magnitude of the two zeros. -/
def zero : Magnitude :=
  ⟨0, 0, by decide, by decide, .inl rfl⟩

/-- The scale at which a quotient with this whole part has a significand of 53
bits; small quotients keep the scale zero. -/
def scaleOf (whole : Nat) : Nat :=
  whole.log2 - 52

/-- At a scale above zero the quotient fills the significand. -/
theorem le_divideToNearest_scaleOf {n d : Nat} (positive : scaleOf (n / d) ≠ 0) :
    Nat.pow 2 52 ≤ divideToNearest n (d * Nat.pow 2 (scaleOf (n / d))) := by
  refine Nat.le_trans ?_ (le_divideToNearest _ _)
  have large : 52 < (n / d).log2 := by
    unfold scaleOf at positive
    omega
  have nonzero : n / d ≠ 0 := by
    intro none
    rw [none] at large
    simp [Nat.log2_def] at large
  have size : 2 ^ (52 + scaleOf (n / d)) ≤ n / d := by
    have exponent : 52 + scaleOf (n / d) = (n / d).log2 := by
      unfold scaleOf
      omega
    rw [exponent]
    exact Nat.log2_self_le nonzero
  rw [Nat.pow_eq, Nat.pow_eq, ← Nat.div_div_eq_div_mul,
    Nat.le_div_iff_mul_le (Nat.two_pow_pos _), ← Nat.pow_add]
  exact size

/-- The magnitude nearest to `n / d` units, ties to even; none if the number is
too large for the format. -/
def round? (n d : Nat) : Option Magnitude :=
  if fits : divideToNearest n (d * Nat.pow 2 (scaleOf (n / d))) < Nat.pow 2 53 then
    if bound : scaleOf (n / d) ≤ 2045 then
      some ⟨divideToNearest n (d * Nat.pow 2 (scaleOf (n / d))), scaleOf (n / d), fits, bound,
        (Nat.eq_zero_or_pos _).imp_right fun positive =>
          le_divideToNearest_scaleOf (Nat.ne_of_gt positive)⟩
    else none
  else if bound : scaleOf (n / d) + 1 ≤ 2045 then
    some ⟨Nat.pow 2 52, scaleOf (n / d) + 1, by decide, bound, .inr (Nat.le_refl _)⟩
  else none

end Magnitude

/-- A number of the binary64 format.  All payloads of a NaN are one value. -/
inductive Binary64
  | nan
  | infinite (negative : Bool)
  | finite (negative : Bool) (magnitude : Magnitude)
  deriving DecidableEq

namespace Binary64

/-- A number that is neither an infinity nor a NaN. -/
def isFinite : Binary64 → Bool
  | finite _ _ => true
  | _ => false

/-- Equality of numbers: a NaN equals nothing, and the two zeros are equal. -/
def equal : Binary64 → Binary64 → Bool
  | infinite negative, infinite negative' => negative == negative'
  | finite negative x, finite negative' x' =>
      x == x' && (negative == negative' || x == .zero)
  | _, _ => false

end Binary64

end SearchQuery.Number
