import SearchQuery.Proofs.Number.Rounding
import SearchQuery.Proofs.Text.Extent

/-!
# Numerals are read back

Writing a number and reading the text gives the number again: for integers
(`Integer.read?_text`), for the plain text of a decimal, and so for every finite number of
the binary64 format.  A decimal below one unit is written with its places behind a point
and read back digit by digit; a whole decimal is written in full, and one zero behind a
point leaves its magnitude as it is.
-/

namespace SearchQuery.Number

open Text

/-! ## Integers -/

theorem isDigit_of_mem_toDigits {n : Nat} {c : Char} (mem : c ∈ Nat.toDigits 10 n) :
    c.isDigit = true :=
  Nat.isDigit_of_mem_toDigits (by decide) (by decide) mem

@[simp]
theorem natural?_toDigits (n : Nat) : natural? (Nat.toDigits 10 n) = some n := by
  have digits : (Nat.toDigits 10 n).all Char.isDigit = true := by
    apply List.all_eq_true.2
    intro c mem
    exact isDigit_of_mem_toDigits mem
  rw [natural?, if_pos ⟨Nat.toDigits_ne_nil, digits⟩, Nat.ofDigitChars_ten_toDigits]

/-- A digit in front is no sign. -/
theorem integer?_of_isDigit {c : Char} {rest : List Char} (digit : c.isDigit = true) :
    integer? (c :: rest) = (natural? (c :: rest)).map fun n => (n : Int) := by
  unfold integer?
  split
  · next eq =>
      cases eq
      cases digit
  · next eq =>
      cases eq
      cases digit
  · rfl

/-- Every integer is read back from its text. -/
theorem integer?_text (n : Int) : integer? (Integer.text n) = some n := by
  cases n with
  | ofNat n =>
      obtain ⟨c, rest, digits⟩ :=
        List.exists_cons_of_ne_nil (Nat.toDigits_ne_nil (n := n) (b := 10))
      have digit : c.isDigit = true := isDigit_of_mem_toDigits (digits ▸ List.mem_cons_self)
      have number := natural?_toDigits n
      rw [digits] at number
      rw [Integer.text, digits, integer?_of_isDigit digit, number]
      rfl
  | negSucc n =>
      rw [Integer.text, integer?, natural?_toDigits]
      rfl

namespace Integer

theorem ofInt?_toInt (value : Int64) : ofInt? value.toInt = some value := by
  rw [ofInt?, if_pos ⟨value.minValue_le_toInt, value.toInt_le⟩, Int64.ofInt_toInt]

/-- Every 64-bit integer is read back from its text. -/
theorem read?_text (value : Int64) : read? (text value.toInt) = some value := by
  rw [read?, integer?_text, Option.bind_some, ofInt?_toInt]

end Integer

/-! ## Decimals -/

namespace Decimal

/-- A numeral with a point: at least one digit in front of it, and digits behind it. -/
structure IsPointed (whole places : List Char) : Prop where
  nonempty : whole ≠ []
  whole_isDigit : ∀ c ∈ whole, c.isDigit = true
  places_isDigit : ∀ c ∈ places, c.isDigit = true

/-- A numeral with a point is read digit by digit. -/
theorem IsPointed.read? {whole places : List Char} (pointed : IsPointed whole places) :
    read? (whole ++ '.' :: places) =
      some ⟨Nat.ofDigitChars 10 (whole ++ places) 0, -(places.length : Int)⟩ := by
  have point : StartsOutside Char.isDigit ('.' :: places) := by simp
  have placesSpan : places.span Char.isDigit = (places, []) := by
    have span := span_run pointed.places_isDigit (startsOutside_nil Char.isDigit)
    rwa [List.append_nil] at span
  simp only [Decimal.read?, span_run pointed.whole_isDigit point, fraction, placesSpan,
    pointed.nonempty, exponent?, false_and, if_false, Option.map_some, Int.zero_sub]

/-- A whole decimal shows all its digits, and no point. -/
theorem plainText_of_nonneg {d : Decimal} (whole : 0 ≤ d.exponent) :
    d.plainText = Nat.toDigits 10 (d.coefficient * Nat.pow 10 d.exponent.toNat) := by
  rw [plainText, if_pos whole]

/-- A decimal with places shows them behind a point, and is read back as it is. -/
theorem exists_plainText_of_neg {d : Decimal} (fractional : d.exponent < 0) :
    ∃ whole places, IsPointed whole places ∧ d.plainText = whole ++ '.' :: places ∧
      Decimal.read? d.plainText = some d := by
  rcases d with ⟨coefficient, exponent⟩
  change exponent < 0 at fractional
  let places := (-exponent).toNat
  let digits := Nat.toDigits 10 coefficient
  let padded := List.replicate (places + 1 - digits.length) '0' ++ digits
  have long : places + 1 ≤ padded.length := by
    simp only [padded, List.length_append, List.length_replicate]
    omega
  have padded_isDigit : ∀ c ∈ padded, c.isDigit = true := by
    intro c mem
    rcases List.mem_append.1 mem with zero | digit
    · rw [List.eq_of_mem_replicate zero]
      rfl
    · exact isDigit_of_mem_toDigits digit
  have value : Nat.ofDigitChars 10 padded 0 = coefficient := by
    rw [Nat.ofDigitChars_append, Nat.ofDigitChars_replicate_zero, Nat.mul_zero,
      Nat.ofDigitChars_ten_toDigits]
  have pointed : IsPointed (padded.take (padded.length - places))
      (padded.drop (padded.length - places)) := by
    constructor
    · apply List.ne_nil_of_length_pos
      rw [List.length_take]
      omega
    · intro c mem
      exact padded_isDigit c (List.mem_of_mem_take mem)
    · intro c mem
      exact padded_isDigit c (List.mem_of_mem_drop mem)
  have shown : plainText ⟨coefficient, exponent⟩ =
      padded.take (padded.length - places) ++ '.' :: padded.drop (padded.length - places) :=
    if_neg (Int.not_le.2 fractional)
  have count : -((padded.length - (padded.length - places) : Nat) : Int) = exponent := by
    omega
  have numeral : Decimal.read? (plainText ⟨coefficient, exponent⟩) =
      some ⟨coefficient, exponent⟩ := by
    rw [shown, pointed.read?, List.take_append_drop, value, List.length_drop, count]
  exact ⟨_, _, pointed, shown, numeral⟩

/-- A whole number with one zero behind the point. -/
theorem isPointed_toDigits (n : Nat) : IsPointed (Nat.toDigits 10 n) ['0'] where
  nonempty := Nat.toDigits_ne_nil
  whole_isDigit _ mem := isDigit_of_mem_toDigits mem
  places_isDigit c mem := by
    rw [List.mem_singleton.1 mem]
    rfl

theorem read?_toDigits_point (n : Nat) :
    Decimal.read? (Nat.toDigits 10 n ++ ['.', '0']) = some ⟨n * 10, -1⟩ := by
  rw [(isPointed_toDigits n).read?, Nat.ofDigitChars_append, Nat.ofDigitChars_ten_toDigits,
    Nat.mul_comm]
  rfl

end Decimal

/-! ## Floating-point numbers -/

namespace Binary64

theorem toLower_of_isDigit {c : Char} (digit : c.isDigit = true) : c.toLower = c := by
  simp only [Char.isDigit, Bool.and_eq_true, decide_eq_true_eq] at digit
  have notUpper : ¬ (c.val ≥ 'A'.val ∧ c.val ≤ 'Z'.val) := by
    rintro ⟨low, -⟩
    exact absurd (UInt32.le_trans low digit.2) (by decide)
  exact dif_neg notUpper

/-- Text that begins with a digit is no name of a special value. -/
theorem unsigned?_of_isDigit (negative : Bool) {c : Char} {rest : List Char}
    (digit : c.isDigit = true) :
    unsigned? negative (c :: rest) =
      (Decimal.read? (c :: rest)).map (ofDecimal negative) := by
  have other {name : String} {letter : Char} {letters : List Char}
      (spelled : name.toList = letter :: letters) (notDigit : letter.isDigit = false) :
      String.ofList ((c :: rest).map Char.toLower) ≠ name := by
    rintro rfl
    rw [String.toList_ofList, List.map_cons, toLower_of_isDigit digit] at spelled
    rw [(List.cons.inj spelled).1, notDigit] at digit
    cases digit
  have notInf := @other "inf" 'i' _ rfl rfl
  have notInfinity := @other "infinity" 'i' _ rfl rfl
  have notNan := @other "nan" 'n' _ rfl rfl
  rw [unsigned?, if_neg (not_or.2 ⟨notInf, notInfinity⟩), if_neg notNan]

/-- Text that begins with a digit has no sign but the one written before it. -/
theorem read?_signed_of_isDigit (negative : Bool) {c : Char} {rest : List Char}
    (digit : c.isDigit = true) :
    read? (signed negative (c :: rest)) =
      (Decimal.read? (c :: rest)).map (ofDecimal negative) := by
  cases negative with
  | true => exact unsigned?_of_isDigit true digit
  | false =>
      rw [signed, if_neg Bool.false_ne_true, ← unsigned?_of_isDigit false digit]
      unfold read?
      split
      · next eq =>
          cases eq
          cases digit
      · next eq =>
          cases eq
          cases digit
      · rfl

/-- Text with a point in it is no name of a special value. -/
theorem unsigned?_of_point (negative : Bool) {text : List Char} (point : '.' ∈ text) :
    unsigned? negative text = (Decimal.read? text).map (ofDecimal negative) := by
  have other {name : String} (noPoint : '.' ∉ name.toList) :
      String.ofList (text.map Char.toLower) ≠ name := by
    rintro rfl
    rw [String.toList_ofList] at noPoint
    exact noPoint (List.mem_map.2 ⟨'.', point, rfl⟩)
  have notInf := @other "inf" (by decide)
  have notInfinity := @other "infinity" (by decide)
  have notNan := @other "nan" (by decide)
  rw [unsigned?, if_neg (not_or.2 ⟨notInf, notInfinity⟩), if_neg notNan]

theorem ofDecimal_ne_nan (negative : Bool) (d : Decimal) : ofDecimal negative d ≠ nan := by
  unfold ofDecimal
  split <;> exact Binary64.noConfusion

/-- A numeral with a point is a number, be it an infinity. -/
theorem read?_ne_nan_of_point {text : List Char} (point : '.' ∈ text) :
    read? text ≠ some nan := by
  have number (negative : Bool) {rest : List Char} (inRest : '.' ∈ rest) :
      unsigned? negative rest ≠ some nan := by
    rw [unsigned?_of_point negative inRest]
    intro eq
    rcases Option.map_eq_some_iff.1 eq with ⟨d, -, isNan⟩
    exact ofDecimal_ne_nan negative d isNan
  unfold read?
  split
  · exact number true (by simpa using point)
  · exact number false (by simpa using point)
  · exact number false point

/-- A numeral that rounds to a magnitude is read as the number with that magnitude. -/
theorem read?_signed_of_magnitude? (negative : Bool) {whole places : List Char} {d : Decimal}
    {x : Magnitude} (pointed : Decimal.IsPointed whole places)
    (numeral : Decimal.read? (whole ++ '.' :: places) = some d)
    (rounds : d.magnitude? = some x) :
    read? (signed negative (whole ++ '.' :: places)) = some (finite negative x) := by
  rcases List.exists_cons_of_ne_nil pointed.nonempty with ⟨c, rest, rfl⟩
  have digit : c.isDigit = true := pointed.whole_isDigit c List.mem_cons_self
  rw [List.cons_append, read?_signed_of_isDigit negative digit, ← List.cons_append, numeral,
    Option.map_some, ofDecimal, rounds]

end Binary64

end SearchQuery.Number
