import SearchQuery.Proofs.Canonical.Accepted

/-!
# The text of a literal by itself

A text is scanned as one token exactly if it spells a tag (`exists_scan_iff_spells`).  So the
text of a literal is one token from which the literal can be read back exactly if the literal is
printable (`Literal.isOneToken_iff_isPrintable`).  This holds for every string, integer, truth
value and null, and for every number but the infinities and NaN.  It holds for a pattern only
without a slash: the slash ends the pattern too early, and unlike the double quotes of a string
it is not left out.
-/

namespace SearchQuery.Query

open Number Text

/-! ## Texts of one token -/

theorem scan_eq_ok_singleton_iff {query : String} {token : Token Tag} :
    scan query = .ok [token, endMark query] ↔ tokens query = .ok [token] := by
  rw [scan]
  cases tokens query with
  | error error => simp [Except.map]
  | ok scanned =>
      have same := @List.append_left_inj _ scanned [token] [endMark query]
      simpa [Except.map] using same

/-- A text is scanned as one token with a certain tag exactly if it spells the tag. -/
theorem exists_scan_iff_spells {query : String} {tag : Tag} :
    (∃ token, scan query = .ok [token, endMark query] ∧ token.tag = tag ∧
      token.lexeme = query) ↔ Spells tag query.toList := by
  constructor
  · rintro ⟨token, scans, rfl, lexeme⟩
    rcases tokens_eq_ok_iff.1 (scan_eq_ok_singleton_iff.1 scans) with ⟨faultless, single⟩
    rcases List.map_eq_singleton_iff.1 single.symm with ⟨piece, found, rfl⟩
    have mem : piece ∈ lexemes query := by simp [found]
    rw [← lexeme]
    exact spells_of_mem_lexemesFrom mem (faultless piece mem)
  · intro spells
    have separated : Word.Separated [⟨tag, query⟩] [] := ⟨spells, startsOutside_nil _, trivial⟩
    have text : query.toList = Word.textOf [⟨tag, query⟩] := by simp
    rcases exists_tokens_of_separated separated text with ⟨scanned, scans, words⟩
    rcases List.map_eq_singleton_iff.1 words with ⟨token, rfl, word⟩
    rcases Word.mk.inj word with ⟨tag_eq, lexeme⟩
    exact ⟨token, scan_eq_ok_singleton_iff.2 scans, tag_eq, lexeme⟩

/-- One token holds the whole text. -/
theorem lexeme_of_scan {query : String} {token : Token Tag}
    (scans : scan query = .ok [token, endMark query]) : token.lexeme = query := by
  rcases tokens_eq_ok_iff.1 (scan_eq_ok_singleton_iff.1 scans) with ⟨-, single⟩
  have whole := textOf_lexemes query
  rw [← single] at whole
  apply String.toList_inj.1
  simpa using whole

namespace Literal

/-! ## Literals of one token -/

/-- The text of the literal is scanned as one token with the mark behind it.  The token is read
as the literal without its double quotes, and that has the same text. -/
def IsOneToken (literal : Literal) : Prop :=
  ∃ token kind operand, scan literal.render = .ok [token, endMark literal.render] ∧
    token.tag = .literal kind ∧ Operand.ofToken token = .ok operand ∧
    operand.literal = literal.unquoted ∧ operand.literal.render = literal.render

theorem isPrintable_unquoted_iff {literal : Literal} :
    literal.unquoted.IsPrintable ↔ literal.IsPrintable := by
  cases literal <;> exact Iff.rfl

/-- The text of an infinity has no point. -/
theorem point_not_mem_infinite (negative : Bool) :
    '.' ∉ (float (.infinite negative)).render.toList := by
  cases negative <;> decide

/-- The text of a literal is one token exactly if the literal is printable. -/
theorem isOneToken_iff_isPrintable (literal : Literal) :
    literal.IsOneToken ↔ literal.IsPrintable := by
  constructor
  · rintro ⟨token, kind, ⟨value, source⟩, scans, tag, reads, rfl, -⟩
    have lexeme := lexeme_of_scan scans
    have spells := exists_scan_iff_spells.1 ⟨token, scans, tag, lexeme⟩
    rcases Operand.ofToken_eq_ok_iff.1 reads with ⟨kind', value, tag', reads, same⟩
    obtain rfl : kind = kind' := Tag.literal.inj (tag.symm.trans tag')
    rw [lexeme, ← (Operand.mk.inj same).1] at reads
    rcases (isPrintable_of_spells spells reads).2 with printable | ⟨negative, infinite⟩
    · exact isPrintable_unquoted_iff.1 printable
    · rw [infinite, read?_eq_some_float_iff] at reads
      obtain rfl := reads.1
      obtain rfl : literal = float (.infinite negative) := by
        cases literal with
        | string text => cases infinite
        | _ => exact infinite
      exact absurd spells.point_mem (point_not_mem_infinite negative)
  · intro printable
    rcases exists_read?_render printable with ⟨kind, tag, reads⟩
    have spells := spells_render printable
    rw [tag] at spells
    rcases exists_scan_iff_spells.2 spells with ⟨token, scans, tokenTag, lexeme⟩
    rw [← lexeme] at reads
    exact ⟨token, kind, ⟨literal.unquoted, some token⟩, scans, tokenTag,
      Operand.ofToken_eq_ok_iff.2 ⟨kind, _, tokenTag, reads, rfl⟩, rfl, render_unquoted literal⟩

/-- The text of the pattern `a/b` is `/a/b/`.  It is scanned as the pattern `/a/`, a word, and a
pattern that is not closed. -/
theorem not_isOneToken_inner_slash :
    (regexp "a/b").render = "/a/b/" ∧ scan "/a/b/" = .error (.unterminatedRegexp 4) ∧
      ¬ (regexp "a/b").IsOneToken := by
  have text : (regexp "a/b").render = "/a/b/" := by decide
  have fails : scan "/a/b/" = .error (.unterminatedRegexp 4) := by decide +kernel
  refine ⟨text, fails, ?_⟩
  rintro ⟨token, -, -, scans, -⟩
  rw [text, fails] at scans
  cases scans

end Literal

end SearchQuery.Query
