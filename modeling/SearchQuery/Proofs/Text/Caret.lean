import SearchQuery.Proofs.Text.Extent
import SearchQuery.Proofs.Text.Tiling

/-!
# The line and the column of a position

The caret stands below the character at a position, counted in characters from the start of the
line that the position is in (`exists_isColumn_caret`).  The lines are those of the text split at
its line breaks (`IsColumn`).

The same picture can be computed with positions alone: where the line breaks are, and what stands
between two positions (`caretBySlices?`).  That could fail at a position behind the text or inside
a character, but never does (`caretBySlices?_eq_some`).
-/

namespace SearchQuery.Text

/-! ## Lines -/

/-- A position in a text, by the line that it is in and the number of characters in front of it on
that line. -/
def IsColumn (text : List Char) (position : Nat) (line : List Char) (column : Nat) : Prop :=
  ∃ above below, text.splitOn '\n' = above ++ line :: below ∧ column ≤ line.length ∧
    position = width (above.flatMap (· ++ ['\n'])) + width (line.take column)

/-- The lines of a text, each with its line break, are the text and one more line break. -/
theorem flatMap_splitOn (text : List Char) :
    (text.splitOn '\n').flatMap (· ++ ['\n']) = text ++ ['\n'] := by
  have joined (first : List Char) (lines : List (List Char)) :
      (first :: lines).flatMap (· ++ ['\n']) = ['\n'].intercalate (first :: lines) ++ ['\n'] := by
    induction lines generalizing first with
    | nil => simp
    | cons second lines ih =>
        rw [List.flatMap_cons, ih, List.intercalate_cons_cons]
        simp
  obtain ⟨first, lines, split⟩ := List.exists_cons_of_ne_nil (List.splitOn_ne_nil '\n' text)
  rw [split, joined, ← split, List.intercalate_splitOn]

/-- A text up to its last line: nothing, or lines that end with a line break each. -/
theorem exists_lastLine (text : List Char) :
    ∃ above, text = above ++ lastLine text ∧ '\n' ∉ lastLine text ∧
      (above = [] ∨ ∃ front, above = front ++ ['\n']) := by
  obtain ⟨run, rest, split, all, outside⟩ := exists_run (· != '\n') text.reverse
  have last : lastLine text = run.reverse := by
    rw [lastLine, split, takeWhile_run all outside]
  refine ⟨rest.reverse, ?_, ?_, ?_⟩
  · rw [last, ← List.reverse_append, ← split, List.reverse_reverse]
  · rw [last, List.mem_reverse]
    intro mem
    simpa using all '\n' mem
  · cases rest with
    | nil => exact .inl rfl
    | cons c rest =>
        obtain rfl : c = '\n' := by simpa using outside
        exact .inr ⟨rest.reverse, List.reverse_cons⟩

/-- A text behind its first line: nothing, or a line break and further lines. -/
theorem exists_firstLine (text : List Char) :
    ∃ below, text = firstLine text ++ below ∧ '\n' ∉ firstLine text ∧
      (below = [] ∨ ∃ rest, below = '\n' :: rest) := by
  obtain ⟨run, below, split, all, outside⟩ := exists_run (· != '\n') text
  have first : firstLine text = run := by
    rw [firstLine, split, takeWhile_run all outside]
  refine ⟨below, ?_, ?_, ?_⟩
  · rw [first, ← split]
  · rw [first]
    intro mem
    simpa using all '\n' mem
  · cases below with
    | nil => exact .inl rfl
    | cons c rest =>
        obtain rfl : c = '\n' := by simpa using outside
        exact .inr ⟨rest, rfl⟩

/-- A line between line breaks, or between a line break and an end of the text, is one of the
lines of the text. -/
theorem exists_splitOn_eq {above line below : List Char} (whole : '\n' ∉ line)
    (starts : above = [] ∨ ∃ front, above = front ++ ['\n'])
    (ends : below = [] ∨ ∃ rest, below = '\n' :: rest) :
    ∃ linesAbove linesBelow, (above ++ line ++ below).splitOn '\n' =
        linesAbove ++ line :: linesBelow ∧
      linesAbove.flatMap (· ++ ['\n']) = above := by
  have behind : ∃ linesBelow, (line ++ below).splitOn '\n' = line :: linesBelow := by
    rcases ends with rfl | ⟨rest, rfl⟩
    · rw [List.append_nil, List.splitOn_eq_singleton whole]
      exact ⟨[], rfl⟩
    · rw [List.splitOn_append_cons_self, List.splitOn_eq_singleton whole]
      exact ⟨rest.splitOn '\n', rfl⟩
  obtain ⟨linesBelow, behind⟩ := behind
  rcases starts with rfl | ⟨front, rfl⟩
  · exact ⟨[], linesBelow, behind, rfl⟩
  · refine ⟨front.splitOn '\n', linesBelow, ?_, flatMap_splitOn front⟩
    have split : front ++ ['\n'] ++ line ++ below = front ++ '\n' :: (line ++ below) := by simp
    rw [split, List.splitOn_append_cons_self, behind]

/-- The position between two parts of a text is on the line of the last line in front of it and
the first line behind it. -/
theorem isColumn_append (before behind : List Char) :
    IsColumn (before ++ behind) (width before) (lastLine before ++ firstLine behind)
      (lastLine before).length := by
  obtain ⟨above, beforeEq, lastWhole, starts⟩ := exists_lastLine before
  obtain ⟨below, behindEq, firstWhole, ends⟩ := exists_firstLine behind
  have whole : '\n' ∉ lastLine before ++ firstLine behind := by simp [lastWhole, firstWhole]
  obtain ⟨linesAbove, linesBelow, lines, aboveEq⟩ := exists_splitOn_eq whole starts ends
  have text : above ++ (lastLine before ++ firstLine behind) ++ below = before ++ behind := by
    rw [← List.append_assoc, ← beforeEq, List.append_assoc, ← behindEq]
  rw [text] at lines
  refine ⟨linesAbove, linesBelow, lines, ?_, ?_⟩
  · rw [List.length_append]
    exact Nat.le_add_right _ _
  · rw [aboveEq, List.take_left, ← width_append, ← beforeEq]

/-! ## The picture -/

/-- A line and below it a caret behind so many spaces. -/
def underline (line : List Char) (column : Nat) : String :=
  String.ofList (line ++ '\n' :: (List.replicate column ' ' ++ ['^']))

theorem toList_pushn (count : Nat) : ("".pushn ' ' count).toList = List.replicate count ' ' := by
  induction count with
  | zero => rfl
  | succ count ih =>
      rw [String.pushn] at ih ⊢
      simp only [Nat.repeat, String.toList_push, ih, List.replicate_succ']

/-- The picture of a position in a text. -/
theorem caret_eq_underline (text : String) (position : Nat) :
    caret text position =
      let (before, behind) := (splitAt? position text.toList).getD (text.toList, [])
      underline (lastLine before ++ firstLine behind) (lastLine before).length := by
  rw [← String.toList_inj]
  simp [caret, underline, toList_pushn]

/-- At a position between two characters the caret stands below the character behind it. -/
theorem exists_isColumn_caret {text : String} {position : Nat} {before behind : List Char}
    (split : splitAt? position text.toList = some (before, behind)) :
    ∃ shown column, IsColumn text.toList position shown column ∧
      caret text position = underline shown column ∧
      ∀ c ∈ behind.head?, c ≠ '\n' → column < shown.length ∧ shown[column]? = some c := by
  refine ⟨lastLine before ++ firstLine behind, (lastLine before).length, ?_, ?_, ?_⟩
  · rw [← append_of_splitAt? split, ← width_of_splitAt? split]
    exact isColumn_append before behind
  · rw [caret_eq_underline, split]
    rfl
  · intro c mem other
    obtain ⟨rest, rfl⟩ := List.head?_eq_some_iff.1 mem
    have first : firstLine (c :: rest) = c :: firstLine rest := by simp [firstLine, other]
    rw [first]
    simp

/-! ## The picture by positions -/

/-- The position of the first line break. -/
def firstBreak? : List Char → Option Nat
  | [] => none
  | c :: rest => if c = '\n' then some 0 else (firstBreak? rest).map (c.utf8Size + ·)

/-- The position of the last line break. -/
def lastBreak? : List Char → Option Nat
  | [] => none
  | c :: rest =>
      match lastBreak? rest with
      | some position => some (c.utf8Size + position)
      | none => if c = '\n' then some 0 else none

/-- The picture from positions: the line starts behind the last line break in front of the
position and stops at the next one.  The position counts as the end of the text if it lies behind
it, and so it does inside a character.  Every other slice has to lie in the text, between two
characters. -/
def caretBySlices? (text : String) (position : Nat) : Option String := do
  let whole := text.toList
  let before := (slice? whole ⟨0, min position (width whole)⟩).getD whole
  let start := (lastBreak? before).elim 0 (· + 1)
  let behind ← slice? whole ⟨start, width whole⟩
  let stop := (firstBreak? behind).elim (width whole) (start + ·)
  let indent ← slice? before ⟨start, width before⟩
  let line ← slice? whole ⟨start, stop⟩
  return underline line indent.length

theorem firstBreak?_of_not_mem {text : List Char} (absent : '\n' ∉ text) :
    firstBreak? text = none := by
  induction text with
  | nil => rfl
  | cons c text ih =>
      rw [List.mem_cons, not_or] at absent
      rw [firstBreak?, if_neg (Ne.symm absent.1), ih absent.2, Option.map_none]

theorem firstBreak?_append {line : List Char} (absent : '\n' ∉ line) (rest : List Char) :
    firstBreak? (line ++ '\n' :: rest) = some (width line) := by
  induction line with
  | nil => rfl
  | cons c line ih =>
      rw [List.mem_cons, not_or] at absent
      rw [List.cons_append, firstBreak?, if_neg (Ne.symm absent.1), ih absent.2, Option.map_some,
        width_cons]

theorem lastBreak?_of_not_mem {text : List Char} (absent : '\n' ∉ text) :
    lastBreak? text = none := by
  induction text with
  | nil => rfl
  | cons c text ih =>
      rw [List.mem_cons, not_or] at absent
      simp only [lastBreak?, ih absent.2, if_neg (Ne.symm absent.1)]

theorem lastBreak?_append (front : List Char) {line : List Char} (absent : '\n' ∉ line) :
    lastBreak? (front ++ '\n' :: line) = some (width front) := by
  induction front with
  | nil =>
      rw [List.nil_append]
      simp only [lastBreak?, lastBreak?_of_not_mem absent, if_true, width_nil]
  | cons c front ih =>
      rw [List.cons_append]
      simp only [lastBreak?, ih, width_cons]

/-- The last line starts behind the last line break. -/
theorem lastBreak?_eq {above line : List Char} (whole : '\n' ∉ line)
    (starts : above = [] ∨ ∃ front, above = front ++ ['\n']) :
    (lastBreak? (above ++ line)).elim 0 (· + 1) = width above := by
  rcases starts with rfl | ⟨front, rfl⟩
  · rw [List.nil_append, lastBreak?_of_not_mem whole]
    rfl
  · rw [List.append_assoc, List.singleton_append, lastBreak?_append front whole, width_append]
    rfl

/-- The first line stops at the first line break. -/
theorem firstBreak?_eq {line below : List Char} (whole : '\n' ∉ line)
    (ends : below = [] ∨ ∃ rest, below = '\n' :: rest) (start : Nat) :
    (firstBreak? (line ++ below)).elim (start + width (line ++ below)) (start + ·) =
      start + width line := by
  rcases ends with rfl | ⟨rest, rfl⟩
  · rw [List.append_nil, firstBreak?_of_not_mem whole]
    rfl
  · rw [firstBreak?_append whole]
    rfl

theorem slice?_zero (text : List Char) (stop : Nat) :
    slice? text ⟨0, stop⟩ = (splitAt? stop text).map Prod.fst := by
  rw [slice?]
  cases splitAt? stop text <;> simp [splitAt?]

/-- A position that splits the text lies in it. -/
theorem le_width_of_splitAt? {position : Nat} {text before behind : List Char}
    (split : splitAt? position text = some (before, behind)) : position ≤ width text := by
  rw [← width_of_splitAt? split, ← append_of_splitAt? split, width_append]
  exact Nat.le_add_right _ _

/-- The text in front of a position, where a position that splits nothing stands for the end. -/
theorem slice?_min (text : List Char) (position : Nat) :
    (slice? text ⟨0, min position (width text)⟩).getD text =
      ((splitAt? position text).getD (text, [])).1 := by
  rw [slice?_zero]
  by_cases inside : position ≤ width text
  · rw [Nat.min_eq_left inside]
    cases splitAt? position text <;> rfl
  · rw [Nat.min_eq_right (Nat.le_of_not_le inside)]
    have whole := splitAt?_append text []
    rw [List.append_nil] at whole
    cases split : splitAt? position text with
    | none =>
        rw [whole]
        rfl
    | some parts => exact absurd (le_width_of_splitAt? split) inside

/-- No slice of the picture lies outside the text or ends inside a character. -/
theorem caretBySlices?_eq_some (text : String) (position : Nat) :
    caretBySlices? text position = some (caret text position) := by
  rw [caret_eq_underline]
  simp only [caretBySlices?, slice?_min]
  generalize split : (splitAt? position text.toList).getD (text.toList, []) = parts
  rcases parts with ⟨before, behind⟩
  have whole : text.toList = before ++ behind := by
    cases found : splitAt? position text.toList with
    | none =>
        rw [found] at split
        cases split
        rw [List.append_nil]
    | some parts =>
        rw [found] at split
        obtain rfl : parts = (before, behind) := split
        exact (append_of_splitAt? found).symm
  obtain ⟨above, beforeEq, lastWhole, starts⟩ := exists_lastLine before
  obtain ⟨below, behindEq, firstWhole, ends⟩ := exists_firstLine behind
  have noBreak : '\n' ∉ lastLine before ++ firstLine behind := by simp [lastWhole, firstWhole]
  generalize lastLine before = front at *
  generalize firstLine behind = back at *
  subst beforeEq behindEq
  have start := lastBreak?_eq lastWhole starts
  have stop := firstBreak?_eq noBreak ends (width above)
  have rest := slice?_append above (front ++ back ++ below) []
  have indent := slice?_append above front []
  have shown := slice?_append above (front ++ back) below
  simp only [List.append_nil, List.append_assoc, ← width_append] at stop rest indent shown
  simp only [whole, List.append_assoc, start, rest, indent, Option.bind_eq_bind, Option.bind_some,
    stop, shown]
  rfl

end SearchQuery.Text
