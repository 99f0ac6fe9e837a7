import SearchQuery.Proofs.Search.Typing

/-!
# The token at which a search text is refused

What can come next is seen from the token in front alone: behind a sigil only its text or the
end, and everywhere else anything but text that is no token (`Reader.Reads.expected_eq`).  So no
other rule is hidden in the grouping of words and blanks.  A search text has no terms exactly if
some token is misplaced in this sense, and the error is about the leftmost of these tokens
(`Term.readAll_eq_error_iff_isFirstMisplaced`).
-/

namespace SearchQuery.Search

open Text

/-- Whether a token with this tag is a sigil, which wants its text at once. -/
def Tag.isSigil : Tag → Bool
  | mention => true
  | publication => true
  | _ => false

theorem Tag.isSigil_eq_false_of_mem {tag : Tag} (text : tag ∈ sigilText) : tag.isSigil = false := by
  cases tag with
  | mention => simp [sigilText] at text
  | publication => simp [sigilText] at text
  | _ => rfl

/-- Whether the last of the tokens is a sigil. -/
def endsInSigil (before : List (Token Tag)) : Bool :=
  before.getLast?.any (·.tag.isSigil)

theorem endsInSigil_concat (before : List (Token Tag)) (token : Token Tag) :
    endsInSigil (before ++ [token]) = token.tag.isSigil := by
  simp [endsInSigil]

theorem endsInSigil_iff {before : List (Token Tag)} :
    endsInSigil before = true ↔
      ∃ front sigil, before = front ++ [sigil] ∧ sigil.tag.isSigil = true := by
  constructor
  · intro ends
    rcases List.eq_nil_or_concat' before with rfl | ⟨front, sigil, rfl⟩
    · cases ends
    · exact ⟨front, sigil, rfl, endsInSigil_concat front sigil ▸ ends⟩
  · rintro ⟨front, sigil, rfl, isSigil⟩
    rw [endsInSigil_concat, isSigil]

/-- The tags of the tokens that can stand behind these tokens. -/
def expectedBehind (before : List (Token Tag)) : List Tag :=
  if endsInSigil before then sigilText else termStart

/-- A token that cannot stand behind the tokens in front of it: it is no token of a search text,
or it follows a sigil and is neither its text nor the end. -/
def IsMisplaced (before : List (Token Tag)) (token : Token Tag) : Prop :=
  token.tag = .error ∨ endsInSigil before = true ∧ token.tag ∉ [.quoted, .word, .eof]

theorem not_mem_termStart_iff {tag : Tag} : tag ∉ termStart ↔ tag = .error := by
  cases tag <;> simp [termStart]

theorem isMisplaced_iff {before : List (Token Tag)} {token : Token Tag} :
    IsMisplaced before token ↔ token.tag ∉ expectedBehind before := by
  unfold IsMisplaced expectedBehind
  by_cases ends : endsInSigil before = true
  · have noText : token.tag = .error → token.tag ∉ [.quoted, .word, .eof] := by
      intro error
      simp [error]
    simpa [ends, sigilText] using noText
  · simp [ends, not_mem_termStart_iff]

namespace Reader

variable {reader after : Reader} {token : Token Tag} {tokens : List (Token Tag)}

/-! ## What can come next -/

theorem expected_takeBlank (reader : Reader) (token : Token Tag) :
    (reader.takeBlank token).last.expected = termStart := by
  unfold takeBlank
  split <;> rfl

theorem expected_takeWord (reader : Reader) (token : Token Tag) :
    (reader.takeWord token).last.expected = termStart := by
  unfold takeWord
  split
  · rfl
  · split <;> rfl
  · rfl

/-- Behind a token that is taken where a term can start or go on, its tag alone tells what can
come next. -/
theorem expected_of_takePlain (waits : reader.last.expected = termStart)
    (taken : reader.takePlain token = .ok after) :
    after.last.expected = if token.tag.isSigil then sigilText else termStart := by
  rcases token with ⟨tag, lexeme, span⟩
  cases tag with
  | blank =>
      cases taken
      exact expected_takeBlank reader _
  | word =>
      cases taken
      exact expected_takeWord reader _
  | eof =>
      cases taken
      exact waits
  | error => cases taken
  | _ =>
      cases taken
      rfl

/-- What can come next is seen from the token that was taken last. -/
theorem expected_of_step (stepped : reader.step token = .ok after) :
    after.last.expected = if token.tag.isSigil then sigilText else termStart := by
  rcases reader with ⟨finished, last⟩
  cases last with
  | sigil subject sigil =>
      simp only [step] at stepped
      split at stepped
      · next text =>
          cases stepped
          rw [Tag.isSigil_eq_false_of_mem text]
          rfl
      · cases stepped
  | _ => exact expected_of_takePlain rfl stepped

/-- Behind any tokens that are taken from the start, the last one tells what can come next. -/
theorem Reads.expected_eq (reads : start.Reads tokens reader) :
    reader.last.expected = expectedBehind tokens := by
  rcases List.eq_nil_or_concat' tokens with rfl | ⟨front, token, rfl⟩
  · obtain rfl := reads_nil_iff.1 reads
    rfl
  · rcases reads_append_iff.1 reads with ⟨middle, -, last⟩
    rcases reads_cons_iff.1 last with ⟨next, stepped, ends⟩
    obtain rfl := reads_nil_iff.1 ends
    rw [expected_of_step stepped, expectedBehind, endsInSigil_concat]

/-- The reader refuses exactly the misplaced tokens. -/
theorem Reads.step_eq_error_iff_isMisplaced (reads : start.Reads tokens reader) {error : Error} :
    reader.step token = .error error ↔
      IsMisplaced tokens token ∧ error = ⟨expectedBehind tokens, token⟩ := by
  rw [step_eq_error_iff, reads.expected_eq, isMisplaced_iff]

/-- Tokens are taken to the last one exactly if none of them is misplaced. -/
theorem exists_reads_iff :
    (∃ reader, start.Reads tokens reader) ↔
      ∀ before token behind, tokens = before ++ token :: behind → ¬ IsMisplaced before token := by
  constructor
  · rintro ⟨after, reads⟩ before token behind rfl misplaced
    rcases reads_append_iff.1 reads with ⟨reader, front, later⟩
    rcases reads_cons_iff.1 later with ⟨next, stepped, -⟩
    have refused := front.step_eq_error_iff_isMisplaced.2 ⟨misplaced, rfl⟩
    cases stepped.symm.trans refused
  · intro inPlace
    cases run : tokens.foldlM step start with
    | ok reader => exact ⟨reader, run⟩
    | error error =>
        rcases foldlM_eq_error_iff.1 run with ⟨before, token, behind, reader, split, reads, refused⟩
        have front : start.Reads before reader := reads
        exact absurd (front.step_eq_error_iff_isMisplaced.1 refused).1
          (inPlace before token behind split)

end Reader

namespace Term

open Reader

/-! ## The leftmost misplaced token -/

/-- The token is misplaced in the text, and no token in front of it is. -/
structure IsFirstMisplaced (text : String) (before : List (Token Tag)) (token : Token Tag) :
    Prop where
  split : ∃ behind, scan text = before ++ token :: behind
  misplaced : IsMisplaced before token
  first : ∀ front other behind, before = front ++ other :: behind → ¬ IsMisplaced front other

/-- The end of a text can stand behind any token. -/
theorem not_isMisplaced_endMark (text : String) (before : List (Token Tag)) :
    ¬ IsMisplaced before (endMark text) := by
  simp [IsMisplaced, endMark, Token.mark, Token.ofText]

/-- A misplaced token stands in front of the end. -/
theorem exists_tokens_of_isMisplaced {text : String} {before behind : List (Token Tag)}
    {token : Token Tag} (split : scan text = before ++ token :: behind)
    (misplaced : IsMisplaced before token) :
    ∃ rest, tokens text = before ++ token :: rest := by
  rcases List.eq_nil_or_concat' behind with rfl | ⟨rest, last, rfl⟩
  · have found := (List.append_inj' split rfl).2
    obtain rfl : endMark text = token := List.head_eq_of_cons_eq found
    exact absurd misplaced (not_isMisplaced_endMark text before)
  · rw [← List.cons_append, ← List.append_assoc] at split
    exact ⟨rest, (List.append_inj' split rfl).1⟩

/-- The reading fails at the leftmost misplaced token. -/
theorem readAll_eq_error_iff_exists {text : String} {error : Error} :
    readAll text = .error error ↔
      ∃ before, IsFirstMisplaced text before error.found ∧
        error.expected = expectedBehind before := by
  rw [readAll_eq_error_iff]
  constructor
  · rintro ⟨before, token, behind, reader, split, reads, refused⟩
    rcases reads.step_eq_error_iff_isMisplaced.1 refused with ⟨misplaced, rfl⟩
    have here : scan text = before ++ token :: (behind ++ [endMark text]) := by
      rw [scan, split, List.append_assoc, List.cons_append]
    exact ⟨before, ⟨⟨_, here⟩, misplaced, exists_reads_iff.1 ⟨reader, reads⟩⟩, rfl⟩
  · rintro ⟨before, ⟨⟨behind, split⟩, misplaced, first⟩, expected⟩
    obtain ⟨rest, found⟩ := exists_tokens_of_isMisplaced split misplaced
    obtain ⟨reader, reads⟩ := exists_reads_iff.2 first
    have refused : reader.step error.found = .error error :=
      reads.step_eq_error_iff_isMisplaced.2 ⟨misplaced, expected ▸ rfl⟩
    exact ⟨before, error.found, rest, reader, found, reads, refused⟩

/-- A text has no terms exactly if some token is misplaced. -/
theorem exists_readAll_eq_error_iff {text : String} :
    (∃ error, readAll text = .error error) ↔
      ∃ before token behind, scan text = before ++ token :: behind ∧
        IsMisplaced before token := by
  constructor
  · rintro ⟨error, failed⟩
    obtain ⟨before, ⟨⟨behind, split⟩, misplaced, -⟩, -⟩ := readAll_eq_error_iff_exists.1 failed
    exact ⟨before, error.found, behind, split, misplaced⟩
  · rintro ⟨before, token, behind, split, misplaced⟩
    obtain ⟨rest, found⟩ := exists_tokens_of_isMisplaced split misplaced
    cases read : readAll text with
    | error error => exact ⟨error, rfl⟩
    | ok terms =>
        rcases readAll_eq_ok_iff.1 read with ⟨after, reads, -⟩
        exact absurd misplaced (exists_reads_iff.1 ⟨after, reads⟩ before token rest found)

/-- Some token is misplaced exactly if there is text that is no token, or a sigil with something
else than its text or the end behind it. -/
theorem exists_isMisplaced_iff {found : List (Token Tag)} :
    (∃ before token behind, found = before ++ token :: behind ∧ IsMisplaced before token) ↔
      (∃ token ∈ found, token.tag = .error) ∨
        ∃ (before : List (Token Tag)) (sigil next : Token Tag) (behind : List (Token Tag)),
          found = before ++ sigil :: next :: behind ∧
            (sigil.tag = .mention ∨ sigil.tag = .publication) ∧
            next.tag ∉ [.quoted, .word, .eof] := by
  have isSigil_iff (tag : Tag) : tag.isSigil = true ↔ tag = .mention ∨ tag = .publication := by
    cases tag <;> simp [Tag.isSigil]
  constructor
  · rintro ⟨before, token, behind, rfl, error | ⟨ends, noText⟩⟩
    · exact .inl ⟨token, List.mem_append_right _ List.mem_cons_self, error⟩
    · obtain ⟨front, sigil, rfl, isSigil⟩ := endsInSigil_iff.1 ends
      have split : front ++ [sigil] ++ token :: behind = front ++ sigil :: token :: behind := by
        rw [List.append_assoc, List.singleton_append]
      exact .inr ⟨front, sigil, token, behind, split, (isSigil_iff _).1 isSigil, noText⟩
  · rintro (⟨token, mem, error⟩ | ⟨before, sigil, next, behind, rfl, isSigil, noText⟩)
    · rcases List.append_of_mem mem with ⟨before, behind, split⟩
      exact ⟨before, token, behind, split, .inl error⟩
    · have split : before ++ sigil :: next :: behind = before ++ [sigil] ++ next :: behind := by
        rw [List.append_assoc, List.singleton_append]
      have ends : endsInSigil (before ++ [sigil]) = true := by
        rw [endsInSigil_concat]
        exact (isSigil_iff _).2 isSigil
      exact ⟨_, next, behind, split, .inr ⟨ends, noText⟩⟩

/-- A search text has no terms exactly if some token is text that is none, or a sigil is followed
at once by another token than a phrase, a word or the end.  The error then names the leftmost
such token, with the tags that can follow a sigil if it follows one, and with the tags that a
term can start with if not. -/
theorem readAll_eq_error_iff_isFirstMisplaced (text : String) :
    ((∃ error, readAll text = .error error) ↔
      (∃ token ∈ scan text, token.tag = .error) ∨
        ∃ (before : List (Token Tag)) (sigil next : Token Tag) (behind : List (Token Tag)),
          scan text = before ++ sigil :: next :: behind ∧
            (sigil.tag = .mention ∨ sigil.tag = .publication) ∧
            next.tag ∉ [.quoted, .word, .eof]) ∧
      ∀ error, readAll text = .error error ↔
        ∃ before, IsFirstMisplaced text before error.found ∧
          error.expected = if endsInSigil before then [.quoted, .word, .eof]
            else [.quoted, .word, .regexp, .mention, .publication, .blank, .eof] :=
  ⟨exists_readAll_eq_error_iff.trans exists_isMisplaced_iff,
    fun _ => readAll_eq_error_iff_exists⟩

/-- Of two misplaced tokens the first one is named, although the other one is no token at all. -/
example : readAll "a @@\u0007" = .error ⟨[.quoted, .word, .eof], ⟨.mention, "@", ⟨3, 4⟩⟩⟩ := by
  decide +kernel

end Term

end SearchQuery.Search
