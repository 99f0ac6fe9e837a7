import SearchQuery.Proofs.Number.Numeral
import SearchQuery.Proofs.Scan.Spelling
import SearchQuery.Query.Literal

/-!
# Literals are read back from their text

The text of a literal spells one token (`Literal.spells_render`), and that token is read as
the literal again, but for the double quotes that the text of a string leaves out
(`Literal.exists_read?_render`).  Three kinds of literal have no such text: text that is no
value, a number that is not finite, and a pattern with a slash in it.
-/

namespace SearchQuery.Query

open Number Text

namespace Literal

/-- The literal without the double quotes in it. -/
def unquoted : Literal → Literal
  | string text => string (withoutQuotes text)
  | other => other

/-- Whether the literal has a text from which it can be read back. -/
def IsPrintable : Literal → Prop
  | float value => value.isFinite = true
  | regexp pattern => '/' ∉ pattern.toList
  | invalid _ => False
  | _ => True

/-- The tag of the token that the literal is written as. -/
def tag : Literal → Tag
  | string _ => .literal .string
  | int _ => .literal .int
  | float _ => .literal .float
  | bool _ => .literal .bool
  | regexp _ => .literal .regexp
  | null => .literal .null
  | invalid _ => .error

theorem quote_not_mem_withoutQuotes (text : String) : '"' ∉ (withoutQuotes text).toList := by
  simp [withoutQuotes]

/-! ## Numbers -/

/-- The text of an integer is digits behind an optional minus sign. -/
theorem spells_int (n : Int) : Spells (.literal .int) (Integer.text n) := by
  cases n with
  | ofNat n =>
      obtain ⟨first, rest, digits⟩ :=
        List.exists_cons_of_ne_nil (Nat.toDigits_ne_nil (n := n) (b := 10))
      have all : ∀ c ∈ first :: rest, c.isDigit = true := by
        intro c mem
        exact isDigit_of_mem_toDigits (digits ▸ mem)
      rw [Integer.text, digits]
      apply Spells.int
      · simp [all first List.mem_cons_self]
      · intro c mem
        exact all c (List.mem_cons_of_mem _ mem)
  | negSucc n =>
      apply Spells.int rfl
      intro c mem
      exact isDigit_of_mem_toDigits mem

/-- A whole number is written with one zero behind the point. -/
theorem floatText_of_whole {negative : Bool} {x : Magnitude} {n : Nat}
    (plain : (Binary64.finite negative x).plainText =
      Binary64.signed negative (Nat.toDigits 10 n)) :
    floatText (.finite negative x) =
      Binary64.signed negative (Nat.toDigits 10 n ++ ['.', '0']) := by
  have noPoint : '.' ∉ Binary64.signed negative (Nat.toDigits 10 n) := by
    have digits : '.' ∉ Nat.toDigits 10 n := by
      intro mem
      have digit := isDigit_of_mem_toDigits mem
      cases digit
    cases negative <;> simp [Binary64.signed, digits]
  rw [floatText, plain, if_pos ⟨rfl, noPoint⟩]
  cases negative <;> rfl

/-- The text of a finite number has a point among its digits, and is read as the number. -/
theorem exists_floatText (negative : Bool) (x : Magnitude) :
    ∃ whole places, Decimal.IsPointed whole places ∧
      floatText (.finite negative x) =
        Binary64.signed negative (whole ++ '.' :: places) ∧
      Binary64.read? (floatText (.finite negative x)) = some (.finite negative x) := by
  have rounds := Magnitude.magnitude?_shortest .larger x
  generalize shown : x.shortest .larger = d at rounds
  have plain : (Binary64.finite negative x).plainText =
      Binary64.signed negative d.plainText := by
    rw [Binary64.plainText, shown]
  by_cases whole : 0 ≤ d.exponent
  · rcases d with ⟨coefficient, exponent⟩
    rcases Int.eq_ofNat_of_zero_le whole with ⟨e, rfl⟩
    rw [Decimal.plainText_of_nonneg whole] at plain
    have text : floatText (.finite negative x) =
        Binary64.signed negative (Nat.toDigits 10 (coefficient * 10 ^ e) ++ ['.', '0']) :=
      floatText_of_whole plain
    have pointed := Decimal.isPointed_toDigits (coefficient * 10 ^ e)
    have numeral := Decimal.read?_toDigits_point (coefficient * 10 ^ e)
    have reads := Binary64.read?_signed_of_magnitude? negative pointed numeral
      (Decimal.magnitude?_mul_ten rounds)
    rw [← text] at reads
    exact ⟨_, _, pointed, text, reads⟩
  · obtain ⟨front, places, pointed, text_eq, numeral⟩ :=
      Decimal.exists_plainText_of_neg (Int.not_le.1 whole)
    rw [text_eq] at plain numeral
    have point : '.' ∈ Binary64.signed negative (front ++ '.' :: places) := by
      cases negative <;> simp [Binary64.signed]
    have text : floatText (.finite negative x) =
        Binary64.signed negative (front ++ '.' :: places) := by
      rw [floatText, plain, if_neg fun missing => missing.2 point]
    have reads := Binary64.read?_signed_of_magnitude? negative pointed numeral rounds
    rw [← text] at reads
    exact ⟨front, places, pointed, text, reads⟩

theorem spells_float {value : Binary64} (isFinite : value.isFinite = true) :
    Spells (.literal .float) (floatText value) := by
  cases value with
  | finite negative x =>
      rcases exists_floatText negative x with ⟨whole, places, pointed, text, -⟩
      rw [text]
      cases negative with
      | true => exact .float rfl pointed.whole_isDigit pointed.places_isDigit
      | false =>
          rcases List.exists_cons_of_ne_nil pointed.nonempty with ⟨first, rest, rfl⟩
          have digits := List.forall_mem_cons.1 pointed.whole_isDigit
          exact .float (by simp [digits.1]) digits.2 pointed.places_isDigit
  | _ => cases isFinite

theorem read?_floatText {value : Binary64} (isFinite : value.isFinite = true) :
    Binary64.read? (floatText value) = some value := by
  cases value with
  | finite negative x =>
      rcases exists_floatText negative x with ⟨-, -, -, -, reads⟩
      exact reads
  | _ => cases isFinite

/-! ## All literals -/

/-- The text of a printable literal spells the token of its kind. -/
theorem spells_render {literal : Literal} (printable : literal.IsPrintable) :
    Spells literal.tag literal.render.toList := by
  cases literal with
  | string text =>
      simpa [render, tag] using Spells.string (quote_not_mem_withoutQuotes text)
  | int value => simpa [render, tag] using spells_int value.toInt
  | float value => simpa [render, tag] using spells_float printable
  | bool value =>
      cases value with
      | true => exact @spells_of_isWord "true" rfl
      | false => exact @spells_of_isWord "false" rfl
  | regexp pattern => simpa [render, tag] using Spells.regexp printable
  | null => exact @spells_of_isWord "null" rfl
  | invalid text => cases printable

/-- The token of a printable literal is read as the literal, quotes left out. -/
theorem exists_read?_render {literal : Literal} (printable : literal.IsPrintable) :
    ∃ kind, literal.tag = .literal kind ∧
      read? kind literal.render = some literal.unquoted := by
  cases literal with
  | string text =>
      refine ⟨.string, rfl, ?_⟩
      rw [render, read?, Delimited.inner_append rfl]
      rfl
  | int value =>
      refine ⟨.int, rfl, ?_⟩
      simp [render, read?, Integer.read?_text, unquoted]
  | float value =>
      refine ⟨.float, rfl, ?_⟩
      simp [render, read?, read?_floatText printable, unquoted]
  | bool value => cases value <;> exact ⟨.bool, rfl, rfl⟩
  | regexp pattern =>
      refine ⟨.regexp, rfl, ?_⟩
      rw [render, read?, Delimited.inner_append rfl]
      rfl
  | null => exact ⟨.null, rfl, rfl⟩
  | invalid text => cases printable

end Literal

end SearchQuery.Query
