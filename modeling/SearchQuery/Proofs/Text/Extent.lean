import Mathlib.Data.List.TakeDrop
import SearchQuery.Text.Delimited

/-!
# How far a piece of text reaches

Pieces of text end in two ways.  A run of characters of one class ends where a
character outside the class begins (`StartsOutside`), and delimited text ends at its
closing delimiter.  Both are known without looking at what follows the end.
-/

namespace SearchQuery.Text

/-- The text is empty, or its first character is outside the class. -/
def StartsOutside (isIn : Char → Bool) (text : List Char) : Prop :=
  ∀ c ∈ text.head?, isIn c = false

section Runs

variable {isIn : Char → Bool} {run rest : List Char}

theorem startsOutside_nil (isIn : Char → Bool) : StartsOutside isIn [] := by
  simp [StartsOutside]

@[simp]
theorem startsOutside_cons_iff {c : Char} :
    StartsOutside isIn (c :: rest) ↔ isIn c = false := by
  simp [StartsOutside]

/-- Nothing stands behind text that goes on with everything. -/
theorem StartsOutside.eq_nil (outside : StartsOutside isIn rest) (all : ∀ c, isIn c = true) :
    rest = [] := by
  cases rest with
  | nil => rfl
  | cons c rest => simp [all] at outside

/-- A run in front is seen at its first character. -/
theorem not_startsOutside_run (nonempty : run ≠ []) (all : ∀ c ∈ run, isIn c = true)
    (rest : List Char) : ¬ StartsOutside isIn (run ++ rest) := by
  cases run with
  | nil => exact absurd rfl nonempty
  | cons c run => simp [all c List.mem_cons_self]

theorem StartsOutside.takeWhile_eq (outside : StartsOutside isIn rest) :
    rest.takeWhile isIn = [] := by
  cases rest with
  | nil => rfl
  | cons c rest => simp [startsOutside_cons_iff.1 outside]

theorem StartsOutside.dropWhile_eq (outside : StartsOutside isIn rest) :
    rest.dropWhile isIn = rest := by
  cases rest with
  | nil => rfl
  | cons c rest => simp [startsOutside_cons_iff.1 outside]

theorem takeWhile_run (all : ∀ c ∈ run, isIn c = true)
    (outside : StartsOutside isIn rest) : (run ++ rest).takeWhile isIn = run := by
  rw [List.takeWhile_append_of_pos all, outside.takeWhile_eq, List.append_nil]

theorem dropWhile_run (all : ∀ c ∈ run, isIn c = true)
    (outside : StartsOutside isIn rest) : (run ++ rest).dropWhile isIn = rest := by
  rw [List.dropWhile_append_of_pos all, outside.dropWhile_eq]

/-- Every text begins with a run of the class, which may be empty. -/
theorem exists_run (isIn : Char → Bool) (text : List Char) :
    ∃ run rest, text = run ++ rest ∧ (∀ c ∈ run, isIn c = true) ∧ StartsOutside isIn rest := by
  refine ⟨text.takeWhile isIn, text.dropWhile isIn, List.takeWhile_append_dropWhile.symm,
    List.all_eq_true.1 List.all_takeWhile, ?_⟩
  intro c mem
  have outside := List.head?_dropWhile_not isIn text
  rwa [Option.mem_def.1 mem] at outside

theorem span_run (all : ∀ c ∈ run, isIn c = true) (outside : StartsOutside isIn rest) :
    (run ++ rest).span isIn = (run, rest) := by
  rw [List.span_eq_takeWhile_dropWhile, takeWhile_run all outside, dropWhile_run all outside]

end Runs

namespace Delimited

variable {delimiter : Char} {inside : List Char}

/-- The closing delimiter is the first one. -/
theorem closing?_append (absent : delimiter ∉ inside) (rest : List Char) :
    closing? delimiter (inside ++ delimiter :: rest) = some (inside.length + 1) := by
  have all : ∀ c ∈ inside, (c != delimiter) = true := by
    intro c mem
    apply bne_iff_ne.2
    intro eq
    apply absent
    rwa [← eq]
  have outside : StartsOutside (· != delimiter) (delimiter :: rest) := by simp
  rw [closing?, if_pos (by simp), takeWhile_run all outside]

/-- A missing delimiter closes nothing. -/
theorem closing?_of_not_mem (absent : delimiter ∉ inside) : closing? delimiter inside = none :=
  if_neg absent

@[simp]
theorem dropOpening_cons (delimiter : Char) (inside : List Char) :
    dropOpening delimiter (delimiter :: inside) = inside :=
  if_pos rfl

theorem dropOpening_of_not_mem (absent : delimiter ∉ inside) :
    dropOpening delimiter inside = inside := by
  cases inside with
  | nil => rfl
  | cons c inside => exact if_neg (List.ne_of_not_mem_cons absent).symm

@[simp]
theorem dropClosing_concat (delimiter : Char) (inside : List Char) :
    dropClosing delimiter (inside ++ [delimiter]) = inside := by
  simp [dropClosing]

theorem dropClosing_of_not_mem (absent : delimiter ∉ inside) :
    dropClosing delimiter inside = inside := by
  rw [dropClosing, dropOpening_of_not_mem (by simpa using absent), List.reverse_reverse]

/-- Text with both delimiters holds what stands between them. -/
theorem inner_of_closed {lexeme : String}
    (closed : lexeme.toList = delimiter :: (inside ++ [delimiter])) :
    inner delimiter lexeme = String.ofList inside := by
  rw [inner, closed, dropOpening_cons, dropClosing_concat]

/-- Text whose closing delimiter is missing holds all that follows the opening one. -/
theorem inner_of_open {lexeme : String} (absent : delimiter ∉ inside)
    (opened : lexeme.toList = delimiter :: inside) :
    inner delimiter lexeme = String.ofList inside := by
  rw [inner, opened, dropOpening_cons, dropClosing_of_not_mem absent]

/-- Text without delimiters stays as it is. -/
theorem inner_of_not_mem {lexeme : String} (absent : delimiter ∉ lexeme.toList) :
    inner delimiter lexeme = lexeme := by
  rw [inner, dropOpening_of_not_mem absent, dropClosing_of_not_mem absent, String.ofList_toList]

/-- Taking the delimiters off gives the text between them. -/
theorem inner_append {mark : String} (isMark : mark.toList = [delimiter]) (text : String) :
    inner delimiter (mark ++ text ++ mark) = text := by
  have closed : (mark ++ text ++ mark).toList = delimiter :: (text.toList ++ [delimiter]) := by
    simp [isMark]
  rw [inner_of_closed closed, String.ofList_toList]

end Delimited

end SearchQuery.Text
