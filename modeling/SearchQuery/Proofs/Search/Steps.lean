import SearchQuery.Proofs.Search.Terms

/-!
# What one token does to the terms

A token is refused exactly if its tag is none of those that can come next
(`Reader.step_eq_error_iff`).  A token that is taken closes the open term or goes on with it,
and its tag decides which (`Last.isClosedBy`).  If it closes the open term, the reader goes on
as from the start (`Reader.step_of_isClosedBy`); if not, the finished terms play no part
(`Reader.step_of_not_isClosedBy`).  Either way no finished term changes again.
-/

namespace SearchQuery.Search

open Text

namespace Last

/-- The tags of the tokens that can come next. -/
def expected : Last → List Tag
  | sigil _ _ => sigilText
  | _ => termStart

/-- Whether the open term is finished when a token with this tag comes.  A word goes on with a
blank at the start and with words, and a blank is taken into the term in front of it. -/
def isClosedBy : Last → Tag → Bool
  | nothing, _ => false
  | sigil _ _, _ => false
  | _, .eof => false
  | blank _, tag => tag != .word
  | term _ false, tag => tag != .blank
  | term open? true, tag => !(isWords open? && tag == .word)

end Last

namespace Reader

variable {reader after : Reader} {finished : List Term} {last : Last} {token : Token Tag}

theorem takePlain_eq_error_iff {error : Error} :
    reader.takePlain token = .error error ↔
      token.tag ∉ termStart ∧ error = ⟨termStart, token⟩ := by
  rcases token with ⟨tag, lexeme, span⟩
  cases tag <;> simp [takePlain, termStart, eq_comm]

/-- A token is refused if its tag cannot come next, and the error says which tags can. -/
theorem step_eq_error_iff {error : Error} :
    reader.step token = .error error ↔
      token.tag ∉ reader.last.expected ∧ error = ⟨reader.last.expected, token⟩ := by
  rcases reader with ⟨finished, last⟩
  cases last with
  | sigil subject sigil =>
      simp only [step, Last.expected]
      split
      · next text => simp [text]
      · next noText => simp [noText, eq_comm]
  | _ => exact takePlain_eq_error_iff

/-- A word goes on with words. -/
theorem takeWord_of_isWords {term : Term} (words : Last.isWords term = true) :
    takeWord ⟨finished, .term term true⟩ token =
      ⟨finished, .term
        { term with
          span.stop := token.span.stop
          value := term.value ++ " " ++ token.lexeme } false⟩ :=
  if_pos words

/-- Behind a term that is not made of words, a word starts a term of its own. -/
theorem takeWord_of_isWords_eq {term : Term} (noWords : Last.isWords term = false) :
    takeWord ⟨finished, .term term true⟩ token =
      begin ⟨finished, .term term true⟩ (.term (Last.wordTerm token.span token.lexeme) false) :=
  if_neg (Bool.eq_false_iff.1 noWords)

/-- A token that closes the open term is taken as at the start. -/
theorem step_of_isClosedBy (finished : List Term) (closed : last.isClosedBy token.tag = true) :
    step ⟨finished, last⟩ token =
      (step start token).map fun opened => ⟨finished ++ last.close, opened.last⟩ := by
  rcases token with ⟨tag, lexeme, span⟩
  cases last with
  | nothing => cases closed
  | sigil subject sigil => cases closed
  | blank blank =>
      cases tag with
      | word => cases closed
      | eof => cases closed
      | _ => rfl
  | term term spaced =>
      cases spaced with
      | false =>
          cases tag with
          | blank => cases closed
          | eof => cases closed
          | _ => rfl
      | true =>
          cases tag with
          | word =>
              have noWords : Last.isWords term = false := by
                simpa [Last.isClosedBy] using closed
              exact congrArg Except.ok (takeWord_of_isWords_eq noWords)
          | eof => cases closed
          | _ => rfl

/-- A token that does not close the open term is taken whatever is finished. -/
theorem step_of_not_isClosedBy (finished : List Term)
    (goesOn : last.isClosedBy token.tag = false) :
    step ⟨finished, last⟩ token =
      (step ⟨[], last⟩ token).map fun next => ⟨finished, next.last⟩ := by
  rcases token with ⟨tag, lexeme, span⟩
  cases last with
  | nothing =>
      have nothing : finished ++ Last.nothing.close = finished := List.append_nil finished
      cases tag <;> simp [step, takePlain, takeBlank, takeWord, begin, Except.map, nothing]
  | sigil subject sigil =>
      simp only [step]
      split <;> rfl
  | blank blank =>
      cases tag with
      | word => rfl
      | eof => rfl
      | _ => cases goesOn
  | term term spaced =>
      cases spaced with
      | false =>
          cases tag with
          | blank => rfl
          | eof => rfl
          | _ => cases goesOn
      | true =>
          cases tag with
          | word =>
              have words : Last.isWords term = true := by
                simpa [Last.isClosedBy] using goesOn
              have same (finished : List Term) :
                  step ⟨finished, .term term true⟩ ⟨.word, lexeme, span⟩ =
                    .ok (takeWord ⟨finished, .term term true⟩ ⟨.word, lexeme, span⟩) := rfl
              rw [same, same, takeWord_of_isWords words, takeWord_of_isWords words]
              rfl
          | eof => rfl
          | _ => simp [Last.isClosedBy] at goesOn

/-- A step closes the open term or leaves the finished terms as they are. -/
theorem step_eq_ok_iff :
    step ⟨finished, last⟩ token = .ok after ↔
      if last.isClosedBy token.tag then
        ∃ opened, step start token = .ok opened ∧ after = ⟨finished ++ last.close, opened.last⟩
      else ∃ next, step ⟨[], last⟩ token = .ok next ∧ after = ⟨finished, next.last⟩ := by
  cases closes : last.isClosedBy token.tag with
  | true =>
      rw [step_of_isClosedBy finished closes]
      cases step start token <;> simp [Except.map, eq_comm]
  | false =>
      rw [step_of_not_isClosedBy finished closes]
      cases step ⟨[], last⟩ token <;> simp [Except.map, eq_comm]

/-- Which terms are finished behind a token is seen from its tag. -/
theorem finished_of_step (stepped : reader.step token = .ok after) :
    after.finished =
      if reader.last.isClosedBy token.tag then reader.finished ++ reader.last.close
      else reader.finished := by
  have found := step_eq_ok_iff.1 stepped
  split at found
  · next closes =>
      rcases found with ⟨opened, -, rfl⟩
      rw [if_pos closes]
  · next goesOn =>
      rcases found with ⟨next, -, rfl⟩
      rw [if_neg goesOn]

/-- No finished term changes again. -/
theorem finished_prefix_of_step (stepped : reader.step token = .ok after) :
    reader.finished <+: after.finished := by
  rw [finished_of_step stepped]
  split
  · exact List.prefix_append _ _
  · exact List.prefix_rfl

theorem Reads.prefix_finished {tokens : List (Token Tag)} (reads : reader.Reads tokens after) :
    reader.finished <+: after.finished := by
  induction tokens generalizing reader with
  | nil =>
      obtain rfl := reads_nil_iff.1 reads
      exact List.prefix_rfl
  | cons token tokens ih =>
      rcases reads_cons_iff.1 reads with ⟨middle, stepped, later⟩
      exact (finished_prefix_of_step stepped).trans (ih later)

/-! ## The end of the text -/

/-- What is open at the end is one more term, unless nothing is open. -/
theorem finish_eq_append (reader : Reader) (mark : Token Tag) :
    reader.finish mark = reader.finished ++ finish ⟨[], reader.last⟩ mark :=
  rfl

theorem length_finish_le (last : Last) (mark : Token Tag) :
    (finish ⟨[], last⟩ mark).length ≤ 1 := by
  cases last with
  | nothing => exact Nat.zero_le 1
  | _ => exact Nat.le_refl 1

/-- All terms but the last are finished before the end. -/
theorem dropLast_finish_prefix_finished (reader : Reader) (mark : Token Tag) :
    (reader.finish mark).dropLast <+: reader.finished := by
  rw [finish_eq_append]
  have short := length_finish_le reader.last mark
  generalize finish ⟨[], reader.last⟩ mark = ending at short ⊢
  cases ending with
  | nil =>
      rw [List.append_nil]
      exact List.dropLast_prefix _
  | cons term rest =>
      obtain rfl : rest = [] := List.eq_nil_of_length_eq_zero (by simpa using short)
      have front : (reader.finished ++ [term]).dropLast = reader.finished := List.dropLast_concat
      exact front.symm ▸ List.prefix_rfl

end Reader

end SearchQuery.Search
