import SearchQuery.Proofs.Search.Longest
import SearchQuery.Proofs.Search.Steps

/-!
# Search text while it is typed

Search text is typed from left to right, and its terms are read again after each character.
What is typed behind a text leaves the tokens of the text their tags and their starts, and only
the last one can become longer.  So a text that is refused is refused at the same place however
it goes on, and every term but the last stays as it is (`Term.readAll_append`).
-/

namespace SearchQuery.Search.Term

open Text Reader

/-- A text has no terms exactly if the reader refuses one of its tokens. -/
theorem readAll_eq_error_iff {text : String} {error : Error} :
    readAll text = .error error ↔
      ∃ before token behind reader, tokens text = before ++ token :: behind ∧
        start.Reads before reader ∧ reader.step token = .error error := by
  have run : readAll text = .error error ↔ (tokens text).foldlM step start = .error error := by
    simp only [readAll, bind, Except.bind, pure, Except.pure]
    cases (tokens text).foldlM step start <;> simp
  exact run.trans foldlM_eq_error_iff

/-- What is typed behind a text that is refused does not help: the same token is refused, though
it may have become longer. -/
theorem exists_readAll_append_eq_error {text : String} {error : Error}
    (failed : readAll text = .error error) (more : String) :
    ∃ later, readAll (text ++ more) = .error later ∧ later.found.tag = error.found.tag ∧
      later.position = error.position ∧ later.expected = error.expected := by
  rcases readAll_eq_error_iff.1 failed with ⟨before, token, behind, reader, split, reads, refused⟩
  rcases step_eq_error_iff.1 refused with ⟨unexpected, rfl⟩
  obtain ⟨later, rest, typed, sameTag, sameStart⟩ := exists_of_tokens_append split more
  have refusedLater : reader.step later = .error ⟨reader.last.expected, later⟩ := by
    rw [step_eq_error_iff, sameTag]
    exact ⟨unexpected, rfl⟩
  exact ⟨_, readAll_eq_error_iff.2 ⟨before, later, rest, reader, typed, reads, refusedLater⟩,
    sameTag, sameStart, rfl⟩

/-- Every term but the last is finished when the last token is read, and that depends on its tag
only. -/
theorem dropLast_prefix_of_readAll_append {text more : String} {terms others : List Term}
    (found : readAll text = .ok terms) (typed : readAll (text ++ more) = .ok others) :
    terms.dropLast <+: others := by
  rcases readAll_eq_ok_iff.1 found with ⟨after, reads, rfl⟩
  rcases readAll_eq_ok_iff.1 typed with ⟨afterMore, readsMore, rfl⟩
  apply (dropLast_finish_prefix_finished after _).trans
  rw [finish_eq_append afterMore]
  refine List.IsPrefix.trans ?_ (List.prefix_append _ _)
  rcases List.eq_nil_or_concat' (tokens text) with none | ⟨before, token, split⟩
  · rw [none, reads_nil_iff] at reads
    rw [← reads]
    exact List.nil_prefix
  · obtain ⟨later, rest, splitMore, sameTag, -⟩ := exists_of_tokens_append split more
    rw [split, reads_append_iff] at reads
    rw [splitMore, reads_append_iff] at readsMore
    rcases reads with ⟨reader, readsBefore, last⟩
    rcases readsMore with ⟨other, readsOther, lastMore⟩
    obtain rfl : reader = other := Except.ok.inj (readsBefore.symm.trans readsOther)
    rcases reads_cons_iff.1 last with ⟨afterToken, stepped, ends⟩
    obtain rfl := reads_nil_iff.1 ends
    rcases reads_cons_iff.1 lastMore with ⟨afterLater, steppedMore, readsRest⟩
    have same : afterLater.finished = afterToken.finished := by
      rw [finished_of_step steppedMore, finished_of_step stepped, sameTag]
    rw [← same]
    exact readsRest.prefix_finished

/-- What is typed behind a search text does not disturb what is in front.  A text that is
refused stays refused, with a token of the same tag at the same place and the same tags that
could stand there.  If the text has terms before and after, all terms but the last one before
are terms after, with the same places and at the start of the list. -/
theorem readAll_append (text more : String) :
    (∀ error, readAll text = .error error →
        ∃ later, readAll (text ++ more) = .error later ∧ later.found.tag = error.found.tag ∧
          later.position = error.position ∧ later.expected = error.expected) ∧
      ∀ terms others, readAll text = .ok terms → readAll (text ++ more) = .ok others →
        terms.dropLast <+: others :=
  ⟨fun _ failed => exists_readAll_append_eq_error failed more,
    fun _ _ => dropLast_prefix_of_readAll_append⟩

/-- Half a word becomes two words, and the two terms in front stay; half a pattern behind a sigil
is refused, and so is the whole one. -/
theorem readAll_append_half_typed :
    let words : Term := ⟨⟨0, 4⟩, .content, "foo", .fuzzy, .word⟩
    let name : Term := ⟨⟨4, 9⟩, .actor, "bar", .equal, .word⟩
    let half : Term := ⟨⟨9, 11⟩, .content, "ba", .fuzzy, .word⟩
    let whole : Term := ⟨⟨9, 16⟩, .content, "baz qux", .fuzzy, .word⟩
    let refused : Error := ⟨sigilText, ⟨.regexp, "/a", ⟨5, 7⟩⟩⟩
    readAll "foo @bar ba" = .ok [words, name, half] ∧
      readAll ("foo @bar ba" ++ "z qux") = .ok [words, name, whole] ∧
      [words, name, half].dropLast <+: [words, name, whole] ∧
      readAll "foo ~/a" = .error refused ∧
      ∃ later, readAll ("foo ~/a" ++ "b/ c") = .error later ∧ later.found.tag = .regexp ∧
        later.position = 5 ∧ later.expected = sigilText := by
  intro words name half whole refused
  have before : readAll "foo @bar ba" = .ok [words, name, half] := by decide +kernel
  have after : readAll ("foo @bar ba" ++ "z qux") = .ok [words, name, whole] := by decide +kernel
  have failed : readAll "foo ~/a" = .error refused := by decide +kernel
  exact ⟨before, after, (readAll_append _ _).2 _ _ before after, failed,
    (readAll_append _ _).1 _ failed⟩

end SearchQuery.Search.Term
