import Mathlib.Order.Bounds.Basic
import Mathlib.Order.MinMax
import SearchQuery.Text.EditDistance

/-!
# The edit distance is the least number of edits

The row of a text holds its distances from all endings of the other text
(`exists_distanceRow_cons`).  So the computation by rows is a recursion on the two texts
(`editDistance_cons_cons`), and its result is the least number of characters to insert, to delete
or to replace (`isLeast_editDistance`).  Without an edit a text leads to itself only
(`edits_zero_iff`).
-/

namespace SearchQuery.Text

/-- So many edits, made from left to right, turn the first text into the second. -/
inductive Edits : List Char → List Char → Nat → Prop
  | done : Edits [] [] 0
  | keep (c : Char) {source target : List Char} {count : Nat} (rest : Edits source target count) :
      Edits (c :: source) (c :: target) count
  | replace (c d : Char) {source target : List Char} {count : Nat}
      (rest : Edits source target count) : Edits (c :: source) (d :: target) (count + 1)
  | insert (d : Char) {source target : List Char} {count : Nat}
      (rest : Edits source target count) : Edits source (d :: target) (count + 1)
  | delete (c : Char) {source target : List Char} {count : Nat}
      (rest : Edits source target count) : Edits (c :: source) target (count + 1)

variable {source target : List Char} {count : Nat}

/-! ## The rows -/

theorem distanceRow_ne_nil (target source : List Char) : distanceRow target source ≠ [] := by
  induction source with
  | nil => cases target <;> exact List.cons_ne_nil _ _
  | cons c source ih =>
      rw [distanceRow]
      unfold nextRow
      split
      · exact List.cons_ne_nil _ _
      · simpa using ih

/-- Without its first entry a row is the row for the ending behind the first character. -/
theorem exists_distanceRow_cons (d : Char) (target source : List Char) :
    ∃ here, distanceRow (d :: target) source = here :: distanceRow target source := by
  induction source with
  | nil => exact ⟨_, rfl⟩
  | cons c source ih =>
      obtain ⟨here, row⟩ := ih
      obtain ⟨next, behind, nonempty⟩ :=
        List.exists_cons_of_ne_nil (distanceRow_ne_nil target source)
      rw [distanceRow, row, nonempty, nextRow, ← nonempty]
      exact ⟨_, rfl⟩

/-- The first entry of a row is the distance from the whole text. -/
theorem distanceRow_cons (d : Char) (target source : List Char) :
    distanceRow (d :: target) source =
      editDistance source (d :: target) :: distanceRow target source := by
  obtain ⟨here, row⟩ := exists_distanceRow_cons d target source
  rw [editDistance, row, List.headD_cons]

theorem exists_distanceRow (target source : List Char) :
    ∃ row, distanceRow target source = editDistance source target :: row := by
  obtain ⟨here, row, found⟩ := List.exists_cons_of_ne_nil (distanceRow_ne_nil target source)
  rw [editDistance, found]
  exact ⟨row, rfl⟩

/-! ## The recursion -/

theorem editDistance_nil_left (target : List Char) : editDistance [] target = target.length := by
  cases target <;> rfl

theorem editDistance_nil_right (source : List Char) : editDistance source [] = source.length := by
  have row : distanceRow [] source = [source.length] := by
    induction source with
    | nil => rfl
    | cons c source ih =>
        rw [distanceRow, ih]
        rfl
  rw [editDistance, row, List.headD_cons]

/-- Equal characters at the start cost nothing; otherwise one edit is made there. -/
theorem editDistance_cons_cons (c d : Char) (source target : List Char) :
    editDistance (c :: source) (d :: target) =
      if c = d then editDistance source target
      else 1 + min (editDistance source target)
        (min (editDistance source (d :: target)) (editDistance (c :: source) target)) := by
  obtain ⟨row, found⟩ := exists_distanceRow target source
  have below : nextRow c target (distanceRow target source) = distanceRow target (c :: source) :=
    rfl
  rw [found] at below
  rw [editDistance, distanceRow, distanceRow_cons, found, nextRow, List.headD_cons, below]
  rfl

/-- The distance does not depend on the direction. -/
theorem editDistance_comm (source target : List Char) :
    editDistance source target = editDistance target source := by
  induction source generalizing target with
  | nil => rw [editDistance_nil_left, editDistance_nil_right]
  | cons c source ih =>
      induction target with
      | nil => rw [editDistance_nil_left, editDistance_nil_right]
      | cons d target ihTarget =>
          rw [editDistance_cons_cons, editDistance_cons_cons, ih target, ih (d :: target), ihTarget,
            min_comm (editDistance (d :: target) source)]
          exact if_congr eq_comm rfl rfl

/-! ## One edit more or less -/

/-- A character that is deleted costs one edit at most, if one that is not inserted does. -/
theorem editDistance_cons_le_of (c : Char)
    (insertLast : ∀ d target, editDistance source target ≤ editDistance source (d :: target) + 1)
    (target : List Char) : editDistance (c :: source) target ≤ editDistance source target + 1 := by
  cases target with
  | nil => rw [editDistance_nil_right, editDistance_nil_right, List.length_cons]
  | cons d target =>
      rw [editDistance_cons_cons]
      split
      · exact insertLast d target
      · omega

/-- A character that is not inserted saves one edit at most. -/
theorem editDistance_le_cons (source : List Char) (d : Char) (target : List Char) :
    editDistance source target ≤ editDistance source (d :: target) + 1 := by
  induction source generalizing d target with
  | nil =>
      rw [editDistance_nil_left, editDistance_nil_left, List.length_cons]
      omega
  | cons c source ih =>
      have delete := editDistance_cons_le_of c ih target
      have shorter := ih d target
      rw [editDistance_cons_cons]
      split
      · exact delete
      · omega

theorem editDistance_cons_le_left (c : Char) (source target : List Char) :
    editDistance (c :: source) target ≤ editDistance source target + 1 :=
  editDistance_cons_le_of c (editDistance_le_cons source) target

theorem editDistance_cons_le_right (d : Char) (source target : List Char) :
    editDistance source (d :: target) ≤ editDistance source target + 1 := by
  rw [editDistance_comm source (d :: target), editDistance_comm source target]
  exact editDistance_cons_le_left d target source

/-! ## The least number of edits -/

/-- No edits lead to the target in fewer steps. -/
theorem Edits.editDistance_le (edits : Edits source target count) :
    editDistance source target ≤ count := by
  induction edits with
  | done => exact Nat.le_refl 0
  | keep c rest ih =>
      rw [editDistance_cons_cons, if_pos rfl]
      exact ih
  | replace c d rest ih =>
      rw [editDistance_cons_cons]
      split <;> omega
  | insert d rest ih => exact (editDistance_cons_le_right d _ _).trans (Nat.succ_le_succ ih)
  | delete c rest ih => exact (editDistance_cons_le_left c _ _).trans (Nat.succ_le_succ ih)

/-- There are so many edits that lead to the target. -/
theorem edits_editDistance (source target : List Char) :
    Edits source target (editDistance source target) := by
  induction source generalizing target with
  | nil =>
      rw [editDistance_nil_left]
      induction target with
      | nil => exact .done
      | cons d target ih => exact .insert d ih
  | cons c source ih =>
      induction target with
      | nil =>
          have rest := ih []
          rw [editDistance_nil_right] at rest ⊢
          exact .delete c rest
      | cons d target ihTarget =>
          rw [editDistance_cons_cons]
          split
          · next same =>
              subst same
              exact .keep c (ih target)
          · rw [Nat.add_comm 1]
            rcases min_choice (editDistance source target)
              (min (editDistance source (d :: target)) (editDistance (c :: source) target))
              with first | later
            · rw [first]
              exact .replace c d (ih target)
            · rw [later]
              rcases min_choice (editDistance source (d :: target))
                (editDistance (c :: source) target) with deleted | inserted
              · rw [deleted]
                exact .delete c (ih (d :: target))
              · rw [inserted]
                exact .insert d ihTarget

/-- The edit distance is the least number of edits from one text to the other. -/
theorem isLeast_editDistance (source target : List Char) :
    IsLeast {count | Edits source target count} (editDistance source target) :=
  ⟨edits_editDistance source target, fun _ edits => edits.editDistance_le⟩

/-- Without an edit a text leads to itself. -/
theorem edits_zero_iff : Edits source target 0 ↔ source = target := by
  constructor
  · intro edits
    generalize zero : 0 = count at edits
    induction edits with
    | done => rfl
    | keep c rest ih => rw [ih zero]
    | replace | insert | delete => cases zero
  · rintro rfl
    induction source with
    | nil => exact .done
    | cons c source ih => exact .keep c ih

end SearchQuery.Text
