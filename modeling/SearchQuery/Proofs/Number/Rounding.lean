import SearchQuery.Number.Decimal

/-!
# Rounding gives a magnitude back

Rounding depends on the quotient alone and not on how it is written as a fraction
(`round?_mul_mul`), and a quotient that is a magnitude is rounded to itself
(`round?_units`).  So the exact decimal of a magnitude rounds back to it, and with it
the shortest decimal, which is searched among those that round back
(`magnitude?_shortest`).
-/

namespace SearchQuery.Number

theorem divideToNearest_mul_mul (n d : Nat) {factor : Nat} (positive : 0 < factor) :
    divideToNearest (n * factor) (d * factor) = divideToNearest n d := by
  have small : 2 * (n % d * factor) < d * factor ↔ 2 * (n % d) < d := by
    rw [← Nat.mul_assoc]
    exact Nat.mul_lt_mul_right positive
  have half : 2 * (n % d * factor) = d * factor ↔ 2 * (n % d) = d := by
    rw [← Nat.mul_assoc]
    exact Nat.mul_left_inj (Nat.ne_of_gt positive)
  simp only [divideToNearest, Nat.mul_mod_mul_right, Nat.mul_div_mul_right n d positive,
    small, half]

/-- A multiple is divided without rest. -/
theorem divideToNearest_mul_self (n : Nat) {d : Nat} (positive : 0 < d) :
    divideToNearest (n * d) d = n := by
  simp [divideToNearest, Nat.mul_div_cancel n positive, positive]

theorem le_log2_mul_five_pow {n : Nat} (positive : 0 < n) (e : Nat) :
    e ≤ (n * Nat.pow 5 e).log2 := by
  have nonzero : n * 5 ^ e ≠ 0 :=
    Nat.ne_of_gt (Nat.mul_pos positive (Nat.pow_pos (by decide)))
  apply (Nat.le_log2 nonzero).2
  calc
    2 ^ e ≤ 5 ^ e := Nat.pow_le_pow_left (by decide) e
    _ ≤ n * 5 ^ e := Nat.le_mul_of_pos_left _ positive

namespace Magnitude

/-- A common factor of numerator and denominator changes nothing. -/
theorem round?_mul_mul (n d : Nat) {factor : Nat} (positive : 0 < factor) :
    round? (n * factor) (d * factor) = round? n d := by
  have rounded (power : Nat) :
      divideToNearest (n * factor) (d * factor * power) = divideToNearest n (d * power) := by
    rw [Nat.mul_right_comm]
    exact divideToNearest_mul_mul n (d * power) positive
  simp only [round?, Nat.mul_div_mul_right n d positive, rounded]

/-- The scale of a magnitude can be read off its size. -/
theorem scaleOf_units (x : Magnitude) : scaleOf x.units = x.scale := by
  unfold scaleOf
  rcases x.normal with subnormal | full
  · have small : x.units < 2 ^ 53 := by
      rw [units, subnormal, Nat.pow_eq, Nat.pow_zero, Nat.mul_one]
      exact x.significand_lt
    have bound : x.units.log2 < 53 := by
      by_cases zero : x.units = 0
      · rw [zero]
        decide
      · exact (Nat.log2_lt zero).2 small
    omega
  · have positive : 0 < x.units :=
      Nat.mul_pos (Nat.lt_of_lt_of_le (by decide) full) (Nat.two_pow_pos _)
    have log : x.units.log2 = 52 + x.scale := by
      rw [Nat.log2_eq_iff (Nat.ne_of_gt positive)]
      constructor
      · rw [Nat.pow_add]
        exact Nat.mul_le_mul_right _ full
      · rw [show 52 + x.scale + 1 = 53 + x.scale by omega, Nat.pow_add]
        exact Nat.mul_lt_mul_of_pos_right x.significand_lt (Nat.two_pow_pos _)
    omega

/-- A magnitude is rounded to itself. -/
theorem round?_units (x : Magnitude) : round? x.units 1 = some x := by
  have rounded : divideToNearest x.units (1 * Nat.pow 2 x.scale) = x.significand := by
    rw [Nat.one_mul]
    exact divideToNearest_mul_self x.significand (Nat.two_pow_pos _)
  simp only [round?, Nat.div_one, scaleOf_units, rounded, x.significand_lt, x.scale_le,
    dite_true]

/-- Only zero counts no units. -/
theorem eq_zero_of_units {x : Magnitude} (none : x.units = 0) : x = zero := by
  have significand_eq : x.significand = 0 :=
    (Nat.mul_eq_zero.1 none).resolve_right (Nat.ne_of_gt (Nat.two_pow_pos _))
  have scale_eq : x.scale = 0 := by
    rcases x.normal with scale_eq | full
    · exact scale_eq
    · rw [significand_eq] at full
      exact absurd full (by decide)
  cases x
  cases significand_eq
  cases scale_eq
  rfl

end Magnitude

namespace Decimal

/-- Outside the three cases that spare arithmetic a decimal is rounded as a quotient. -/
theorem magnitude?_eq_round? {n : Nat} {e : Int} (positive : 0 < n) (small : e ≤ 310)
    (large : -(331 + (n.log2 : Int)) ≤ e) :
    magnitude? ⟨n, e⟩ =
      Magnitude.round? (n * Nat.pow 10 e.toNat * Nat.pow 2 1074)
        (Nat.pow 10 (-e).toNat) := by
  rw [magnitude?, if_neg (Nat.ne_of_gt positive), if_neg (Int.not_lt.2 small),
    if_neg (Int.not_lt.2 large)]

theorem magnitude?_zero (e : Int) : magnitude? ⟨0, e⟩ = some .zero :=
  if_pos rfl

/-- A decimal without places rounds as it does with one zero behind the point. -/
theorem magnitude?_mul_ten {n e : Nat} {x : Magnitude}
    (rounds : magnitude? ⟨n, e⟩ = some x) :
    magnitude? ⟨n * Nat.pow 10 e * 10, -1⟩ = some x := by
  by_cases none : n = 0
  · subst none
    rw [magnitude?_zero] at rounds
    rw [Nat.zero_mul, Nat.zero_mul, magnitude?_zero, rounds]
  · have positive : 0 < n := Nat.pos_of_ne_zero none
    have small : (e : Int) ≤ 310 := by
      apply Int.not_lt.1
      intro large
      rw [magnitude?, if_neg none, if_pos large] at rounds
      cases rounds
    have padded : 0 < n * Nat.pow 10 e * 10 :=
      Nat.mul_pos (Nat.mul_pos positive (Nat.pow_pos (by decide))) (by decide)
    have quotient :
        n * Nat.pow 10 e * 10 * Nat.pow 10 (-1 : Int).toNat * Nat.pow 2 1074 =
          n * Nat.pow 10 (e : Int).toNat * Nat.pow 2 1074 * 10 := by
      rw [show Nat.pow 10 (-1 : Int).toNat = 1 from rfl, Nat.mul_one, Nat.mul_right_comm,
        Int.toNat_natCast]
    have unit : Nat.pow 10 (-(-1 : Int)).toNat = Nat.pow 10 (-(e : Int)).toNat * 10 := by
      rw [Int.toNat_neg_natCast]
      rfl
    rw [magnitude?_eq_round? positive small (by omega)] at rounds
    rw [magnitude?_eq_round? padded (by decide) (by omega), quotient, unit,
      Magnitude.round?_mul_mul _ _ (by decide), rounds]

end Decimal

namespace Magnitude

/-- With `1074` places a magnitude is written exactly, and rounds back to itself. -/
theorem magnitude?_units_mul_five_pow {x : Magnitude} {e : Nat} (nonzero : x.units ≠ 0)
    (places : e = 1074) :
    Decimal.magnitude? ⟨x.units * Nat.pow 5 e, -(e : Int)⟩ = some x := by
  have positive : 0 < x.units := Nat.pos_of_ne_zero nonzero
  have fives : 0 < Nat.pow 5 e := Nat.pow_pos (by decide)
  have common : 0 < Nat.pow 5 e * Nat.pow 2 e := Nat.mul_pos fives (Nat.two_pow_pos e)
  have large := le_log2_mul_five_pow positive e
  have numerator :
      x.units * Nat.pow 5 e * Nat.pow 10 (-(e : Int)).toNat * Nat.pow 2 1074 =
        x.units * (Nat.pow 5 e * Nat.pow 2 e) := by
    rw [Int.toNat_neg_natCast, ← places, show Nat.pow 10 0 = 1 from rfl, Nat.mul_one,
      Nat.mul_assoc]
  have denominator :
      Nat.pow 10 (-(-(e : Int))).toNat = 1 * (Nat.pow 5 e * Nat.pow 2 e) := by
    rw [Int.neg_neg, Int.toNat_natCast, Nat.one_mul]
    exact Nat.mul_pow 5 2 e
  rw [Decimal.magnitude?_eq_round? (Nat.mul_pos positive fives) (by omega) (by omega),
    numerator, denominator, round?_mul_mul _ _ common, round?_units]

/-- The exact decimal of a magnitude rounds back to it. -/
theorem magnitude?_exact (x : Magnitude) : x.exact.magnitude? = some x := by
  by_cases none : x.units = 0
  · rw [exact, Nat.mul_eq_zero.2 (.inl none), Decimal.magnitude?_zero, eq_zero_of_units none]
  · apply magnitude?_units_mul_five_pow none
    rfl

/-- The shortest decimal of a magnitude rounds back to it. -/
theorem magnitude?_shortest (tie : Tie) (x : Magnitude) :
    (x.shortest tie).magnitude? = some x := by
  rw [shortest]
  cases found : List.find? (fun d : Decimal => d.magnitude? = some x) _ with
  | none => exact magnitude?_exact x
  | some d => simpa using List.find?_some found

end Magnitude

end SearchQuery.Number
