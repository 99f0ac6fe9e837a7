import Mathlib.Data.List.TakeWhile
import SearchQuery.Proofs.Search.Spelling
import SearchQuery.Search.PlainText

/-!
# Bare words

Text that is read as bare words and is written in the same way has exactly one space between
two words (`isWords`).  All such text passes the test for bare text
(`isBareText_of_isWords`), and a word alone the test for a single word
(`isSingleWord_of_isWord`).  The converse fails: the tests look for sigils, quotes and a slash
in front only, so other blanks, slashes behind a blank and control characters pass them.
-/

namespace SearchQuery.Search

open Text

/-- Whether the text is bare words with one space between two of them. -/
def isWords (text : List Char) : Bool :=
  (text.splitOn ' ').all isWord

theorem isWords_append (text rest : List Char) :
    isWords (text ++ ' ' :: rest) = (isWords text && isWords rest) := by
  rw [isWords, List.splitOn_append_cons_self, List.all_append]
  rfl

theorem space_not_mem_of_isWord {text : List Char} (word : isWord text = true) : ' ' ∉ text := by
  intro mem
  cases isWordPart_of_mem word ' ' mem

theorem isWords_of_isWord {text : List Char} (word : isWord text = true) :
    isWords text = true := by
  simpa [isWords, List.splitOn_eq_singleton (space_not_mem_of_isWord word)] using word

/-- The parts one after the other, each behind a separator. -/
def spaced {α : Type} (separator : α) (parts : List (List α)) : List α :=
  parts.flatMap (separator :: ·)

theorem intercalate_cons {α : Type} (separator : α) (first : List α) (parts : List (List α)) :
    [separator].intercalate (first :: parts) = first ++ spaced separator parts := by
  induction parts generalizing first with
  | nil => simp [spaced]
  | cons part parts ih => simp [List.intercalate_cons_cons, ih, spaced]

/-- The separated parts up to the middle of a part, and all that follows. -/
theorem intercalate_append_cons {α : Type} (separator : α) (front : List (List α))
    (part more : List α) (back : List (List α)) :
    [separator].intercalate (front ++ (part ++ more) :: back) =
      [separator].intercalate (front ++ [part]) ++ (more ++ spaced separator back) := by
  cases front with
  | nil => simp [intercalate_cons, spaced]
  | cons first front =>
      rw [List.cons_append, List.cons_append, intercalate_cons, intercalate_cons]
      simp [spaced]

/-- Splitting a text at its spaces loses only the spaces. -/
theorem exists_splitOn_space (text : List Char) :
    ∃ first words, text.splitOn ' ' = first :: words ∧ text = first ++ spaced ' ' words := by
  obtain ⟨first, words, split⟩ := List.exists_cons_of_ne_nil (List.splitOn_ne_nil ' ' text)
  refine ⟨first, words, split, ?_⟩
  rw [← intercalate_cons, ← split, List.intercalate_splitOn]

/-- Bare words are a word and further words behind a space. -/
theorem exists_words {text : List Char} (many : isWords text = true) :
    ∃ first words, text = first ++ spaced ' ' words ∧ isWord first = true ∧
      ∀ word ∈ words, isWord word = true := by
  obtain ⟨first, words, split, text_eq⟩ := exists_splitOn_space text
  rw [isWords, split, List.all_cons, Bool.and_eq_true, List.all_eq_true] at many
  exact ⟨first, words, text_eq, many.1, many.2⟩

/-- There is nothing in bare words but parts of words and spaces. -/
theorem isWordPart_or_space_of_mem {text : List Char} (many : isWords text = true) {c : Char}
    (mem : c ∈ text) : isWordPart c = true ∨ c = ' ' := by
  obtain ⟨first, words, rfl, word, others⟩ := exists_words many
  simp only [spaced, List.mem_append, List.mem_flatMap, List.mem_cons] at mem
  rcases mem with inFirst | ⟨other, otherMem, rfl | inOther⟩
  · exact .inl (isWordPart_of_mem word c inFirst)
  · exact .inr rfl
  · exact .inl (isWordPart_of_mem (others other otherMem) c inOther)

theorem quote_not_mem_of_isWords {text : List Char} (many : isWords text = true) :
    '"' ∉ text := by
  intro mem
  rcases isWordPart_or_space_of_mem many mem with part | space
  · cases part
  · cases space

/-! ## The tests -/

/-- Nothing is left between the blanks at both ends exactly if all is blank. -/
theorem trim_eq_nil_iff {text : List Char} :
    trim text = [] ↔ ∀ c ∈ text, isBlank c = true := by
  obtain ⟨run, rest, rfl, blanks, outside⟩ := exists_run isBlank text
  rw [trim, dropWhile_run blanks outside, List.reverse_eq_nil_iff, List.dropWhile_eq_nil_iff]
  cases rest with
  | nil => simpa using blanks
  | cons c rest =>
      have notBlank := startsOutside_cons_iff.1 outside
      constructor
      · intro all
        simp [all c (by simp)] at notBlank
      · intro all
        simp [all c (by simp)] at notBlank

theorem isBareText_iff {text : String} :
    isBareText text = true ↔
      (∃ c ∈ text.toList, isBlank c = false) ∧ text.toList.head? ≠ some '/' ∧
        ∀ c ∈ text.toList, c ≠ '@' ∧ c ≠ '~' ∧ c ≠ '"' := by
  have someBlank : (trim text.toList).isEmpty = false ↔ ∃ c ∈ text.toList, isBlank c = false := by
    rw [List.isEmpty_eq_false_iff, ne_eq, trim_eq_nil_iff]
    simp
  simp [isBareText, someBlank, and_assoc]

theorem isSingleWord_iff {text : String} :
    isSingleWord text = true ↔
      isBareText text = true ∧ ∀ c ∈ text.toList, isBlank c = false := by
  simp [isSingleWord]

/-- A blank is no bare text. -/
theorem isBareText_of_isBlank {text : String} (blank : ∀ c ∈ text.toList, isBlank c = true) :
    isBareText text = false := by
  apply Bool.eq_false_iff.2
  intro bare
  obtain ⟨c, mem, notBlank⟩ := (isBareText_iff.1 bare).1
  rw [blank c mem] at notBlank
  cases notBlank

theorem isBareText_of_isWords {text : String} (many : isWords text.toList = true) :
    isBareText text = true := by
  obtain ⟨first, words, text_eq, word, -⟩ := exists_words many
  obtain ⟨c, rest, rfl, notSlash, part, -⟩ := exists_cons_of_isWord word
  refine isBareText_iff.2 ⟨⟨c, ?_, ?_⟩, ?_, ?_⟩
  · simp [text_eq]
  · exact (isWordPart_iff.1 part).1
  · simpa [text_eq] using notSlash
  · intro d mem
    rcases isWordPart_or_space_of_mem many mem with other | rfl
    · exact (isWordPart_iff.1 other).2.2
    · decide

theorem isSingleWord_of_isWord {text : String} (word : isWord text.toList = true) :
    isSingleWord text = true := by
  refine isSingleWord_iff.2 ⟨isBareText_of_isWords (isWords_of_isWord word), ?_⟩
  intro c mem
  exact (isWordPart_iff.1 (isWordPart_of_mem word c mem)).1

end SearchQuery.Search
