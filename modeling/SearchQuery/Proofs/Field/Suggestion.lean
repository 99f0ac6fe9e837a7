import Mathlib.Order.Bounds.Basic
import SearchQuery.Field.Catalogue
import SearchQuery.Proofs.Text.EditDistance

/-!
# Suggested names

A name that no field has is answered with the nearest name, the first one to which the least
number of edits leads, if three edits are enough.  Fields without a name are never suggested.
The search goes through the names from the end.  By every distance that counts the edits
(`CountsEdits`) the name that it finds is the nearest one (`exists_isNearest`); there is only one
(`IsNearest.eq`), so the answer is told by the fields alone (`Catalogue.lookup_of_unknown`).
-/

namespace SearchQuery.Field

open Text
open Query (Comparison Error)

/-- The numbers of edits that lead from the name to the name of a field. -/
def editCounts (fields : List Field) (name : String) : Set Nat :=
  {count | ∃ field ∈ fields, field.name ≠ "" ∧ Edits name.toList field.name.toList count}

/-- The field is the first to whose name the least number of edits leads. -/
structure IsNearest (fields : List Field) (name : String) (field : Field) (count : Nat) : Prop where
  named : field.name ≠ ""
  edits : Edits name.toList field.name.toList count
  isLeast : IsLeast (editCounts fields name) count
  first : ∃ before behind, fields = before ++ field :: behind ∧
    ∀ other ∈ before, other.name ≠ "" → ¬ Edits name.toList other.name.toList count

/-- The distance of two names is the least number of edits that lead from one to the other. -/
def CountsEdits (distance : String → String → Nat) : Prop :=
  ∀ name other, IsLeast {count | Edits name.toList other.toList count} (distance name other)

theorem countsEdits_nameDistance : CountsEdits nameDistance :=
  fun name other => isLeast_editDistance name.toList other.toList

variable {fields rest : List Field} {field other head : Field} {name suggested : String}
  {count otherCount : Nat} {distance : String → String → Nat}

/-! ## The nearest field -/

theorem mem_editCounts_cons :
    count ∈ editCounts (head :: rest) name ↔
      (head.name ≠ "" ∧ Edits name.toList head.name.toList count) ∨
        count ∈ editCounts rest name := by
  simp [editCounts]

theorem distance_mem_editCounts (counts : CountsEdits distance) (mem : field ∈ fields)
    (named : field.name ≠ "") : distance name field.name ∈ editCounts fields name :=
  ⟨field, mem, named, (counts name field.name).1⟩

namespace IsNearest

theorem mem (nearest : IsNearest fields name field count) : field ∈ fields := by
  obtain ⟨before, behind, rfl, -⟩ := nearest.first
  exact List.mem_append_right _ List.mem_cons_self

/-- The nearest field is the first one that is wanted, if it is wanted and no field is that is
farther away or has no name. -/
theorem find?_eq (nearest : IsNearest fields name field count) {wanted : Field → Bool}
    (isWanted : wanted field = true)
    (near : ∀ other, wanted other = true →
      other.name ≠ "" ∧ Edits name.toList other.name.toList count) :
    fields.find? wanted = some field := by
  obtain ⟨before, behind, split, farther⟩ := nearest.first
  have skipped : ∀ other ∈ before, (!wanted other) = true := by
    intro other mem
    cases answer : wanted other with
    | false => rfl
    | true =>
        obtain ⟨named, edits⟩ := near other answer
        exact absurd edits (farther other mem named)
  exact List.find?_eq_some_iff_append.2 ⟨isWanted, before, behind, split, skipped⟩

/-- There is only one nearest field. -/
theorem eq (nearest : IsNearest fields name field count)
    (otherNearest : IsNearest fields name other otherCount) :
    field = other ∧ count = otherCount := by
  classical
  obtain rfl := nearest.isLeast.unique otherNearest.isLeast
  -- both are the first field to whose name so many edits lead
  have found {first : Field} (isNearest : IsNearest fields name first count) :
      fields.find? (fun field => field.name ≠ "" ∧ Edits name.toList field.name.toList count) =
        some first :=
    isNearest.find?_eq (decide_eq_true ⟨isNearest.named, isNearest.edits⟩)
      fun _ => of_decide_eq_true
  exact ⟨Option.some.inj ((found nearest).symm.trans (found otherNearest)), rfl⟩

/-- A name that is no field's own is at least one edit away. -/
theorem count_pos (nearest : IsNearest fields name field count)
    (unknown : ∀ field ∈ fields, field.name ≠ name) : 0 < count := by
  rw [Nat.pos_iff_ne_zero]
  rintro rfl
  exact unknown field nearest.mem (String.toList_inj.1 (edits_zero_iff.1 nearest.edits).symm)

/-- The field is the first with its name, since the name of any other is as near. -/
theorem find?_name (nearest : IsNearest fields name field count) :
    fields.find? (·.name == field.name) = some field := by
  have own : (field.name == field.name) = true := beq_self_eq_true _
  apply nearest.find?_eq own
  intro other same
  rw [eq_of_beq same]
  exact ⟨nearest.named, nearest.edits⟩

/-- A field in front that is farther away or has no name changes nothing. -/
theorem cons (counts : CountsEdits distance) (nearest : IsNearest rest name field count)
    (farther : head.name ≠ "" → count < distance name head.name) :
    IsNearest (head :: rest) name field count := by
  have notHead : head.name ≠ "" → ¬ Edits name.toList head.name.toList count := by
    intro named edits
    exact absurd (farther named) ((counts name head.name).2 edits).not_gt
  obtain ⟨before, behind, rfl, none⟩ := nearest.first
  constructor
  case named => exact nearest.named
  case edits => exact nearest.edits
  case isLeast =>
    constructor
    · exact mem_editCounts_cons.2 (.inr nearest.isLeast.1)
    · intro fewer mem
      rcases mem_editCounts_cons.1 mem with ⟨named, edits⟩ | later
      · exact (farther named).le.trans ((counts name head.name).2 edits)
      · exact nearest.isLeast.2 later
  case first =>
    have noneHere : ∀ other ∈ head :: before, other.name ≠ "" →
        ¬ Edits name.toList other.name.toList count := by
      rw [List.forall_mem_cons]
      exact ⟨notHead, none⟩
    exact ⟨head :: before, behind, rfl, noneHere⟩

/-- The first field is the nearest one if no other is nearer. -/
theorem of_head (counts : CountsEdits distance) (named : head.name ≠ "")
    (farther : ∀ count ∈ editCounts rest name, distance name head.name ≤ count) :
    IsNearest (head :: rest) name head (distance name head.name) := by
  constructor
  case named => exact named
  case edits => exact (counts name head.name).1
  case isLeast =>
    constructor
    · exact distance_mem_editCounts counts List.mem_cons_self named
    · intro count mem
      rcases mem_editCounts_cons.1 mem with ⟨-, edits⟩ | later
      · exact (counts name head.name).2 edits
      · exact farther count later
  case first => exact ⟨[], rest, rfl, List.forall_mem_nil _⟩

end IsNearest

/-! ## The search -/

theorem nearest?_eq_none_iff {names : List String} :
    nearest? distance name names = none ↔ names = [] := by
  cases names with
  | nil => simp [nearest?]
  | cons candidate rest =>
      rw [nearest?]
      split
      · split <;> simp
      · simp

/-- The search finds nothing only if no field has a name. -/
theorem editCounts_eq_empty
    (nothing : nearest? distance name ((fields.map Field.name).filter (· != "")) = none) :
    editCounts fields name = ∅ := by
  rw [Set.eq_empty_iff_forall_notMem]
  rintro count ⟨field, mem, named, -⟩
  have kept : field.name ∈ (fields.map Field.name).filter (· != "") := by
    simpa [named] using ⟨field, mem, rfl⟩
  rw [nearest?_eq_none_iff.1 nothing] at kept
  cases kept

/-- The search finds the name of the nearest field. -/
theorem exists_isNearest (counts : CountsEdits distance)
    (found : nearest? distance name ((fields.map Field.name).filter (· != "")) =
      some (suggested, count)) :
    ∃ field, field.name = suggested ∧ IsNearest fields name field count := by
  induction fields generalizing suggested count with
  | nil => cases found
  | cons head rest ih =>
      by_cases unnamed : head.name = ""
      · rw [List.map_cons, List.filter_cons_of_neg (by simpa using unnamed)] at found
        obtain ⟨field, same, nearest⟩ := ih found
        exact ⟨field, same, nearest.cons counts fun named => absurd unnamed named⟩
      · rw [List.map_cons, List.filter_cons_of_pos (by simpa using unnamed), nearest?] at found
        split at found
        · next other least below =>
            obtain ⟨field, same, nearest⟩ := ih below
            by_cases nearer : least < distance name head.name
            · rw [if_pos nearer] at found
              cases found
              exact ⟨field, same, nearest.cons counts fun _ => nearer⟩
            · rw [if_neg nearer] at found
              cases found
              refine ⟨head, rfl, .of_head counts unnamed ?_⟩
              intro count mem
              exact (Nat.le_of_not_lt nearer).trans (nearest.isLeast.2 mem)
        · next nothing =>
            cases found
            refine ⟨head, rfl, .of_head counts unnamed ?_⟩
            rw [editCounts_eq_empty nothing]
            exact fun _ => False.elim

/-- The search finds a name as soon as some field has one. -/
theorem exists_nearest?_of_mem (distance : String → String → Nat)
    (mem : count ∈ editCounts fields name) :
    ∃ suggested least, nearest? distance name ((fields.map Field.name).filter (· != "")) =
      some (suggested, least) := by
  cases found : nearest? distance name ((fields.map Field.name).filter (· != "")) with
  | none =>
      rw [editCounts_eq_empty found] at mem
      cases mem
  | some answer => exact ⟨answer.1, answer.2, rfl⟩

theorem exists_isNearest_of_mem (mem : count ∈ editCounts fields name) :
    ∃ field least, IsNearest fields name field least := by
  obtain ⟨suggested, least, found⟩ := exists_nearest?_of_mem nameDistance mem
  obtain ⟨field, -, nearest⟩ := exists_isNearest countsEdits_nameDistance found
  exact ⟨field, least, nearest⟩

theorem IsNearest.nearest?_eq (counts : CountsEdits distance)
    (nearest : IsNearest fields name field count) :
    nearest? distance name ((fields.map Field.name).filter (· != "")) =
      some (field.name, count) := by
  obtain ⟨suggested, least, found⟩ := exists_nearest?_of_mem distance nearest.isLeast.1
  obtain ⟨other, same, otherNearest⟩ := exists_isNearest counts found
  obtain ⟨rfl, rfl⟩ := nearest.eq otherNearest
  rw [found, same]

/-! ## The answer -/

/-- The name of the nearest field is suggested if three edits lead to it. -/
theorem suggestion?_eq_some_iff (counts : CountsEdits distance)
    (unknown : ∀ field ∈ fields, field.name ≠ name) :
    suggestion? distance fields name = some suggested ↔
      ∃ field count, IsNearest fields name field count ∧ count ≤ 3 ∧ field.name = suggested := by
  rw [suggestion?]
  constructor
  · intro found
    split at found
    · next candidate count search =>
        obtain ⟨field, same, nearest⟩ := exists_isNearest counts search
        split at found
        · next near =>
            cases found
            exact ⟨field, count, nearest, near.2, same⟩
        · cases found
    · cases found
  · rintro ⟨field, count, nearest, near, rfl⟩
    rw [nearest.nearest?_eq counts]
    exact if_pos ⟨nearest.count_pos unknown, near⟩

/-- Nothing is suggested if four edits or more lead to every name. -/
theorem suggestion?_eq_none_iff (counts : CountsEdits distance)
    (unknown : ∀ field ∈ fields, field.name ≠ name) :
    suggestion? distance fields name = none ↔ ∀ count ∈ editCounts fields name, 3 < count := by
  rw [Option.eq_none_iff_forall_ne_some]
  constructor
  · intro nothing count mem
    by_contra near
    obtain ⟨field, least, nearest⟩ := exists_isNearest_of_mem mem
    have le : least ≤ 3 := (nearest.isLeast.2 mem).trans (Nat.le_of_not_lt near)
    exact nothing field.name
      ((suggestion?_eq_some_iff counts unknown).2 ⟨field, least, nearest, le, rfl⟩)
  · intro far suggested found
    obtain ⟨field, count, nearest, near, -⟩ := (suggestion?_eq_some_iff counts unknown).1 found
    exact absurd near (far count nearest.isLeast.1).not_ge

/-- No condition is composed on a field that is not found. -/
theorem Source.compose_eq_error {source : Source} {error : Error}
    (refused : source.lookup name = .error error) (comparison : Comparison) (raw : String) :
    source.compose name comparison raw = .error error := by
  rw [compose, refused]
  rfl

namespace Catalogue

variable {catalogue : Catalogue}

/-- The name of the nearest field finds this field. -/
theorem lookup_of_isNearest (nearest : IsNearest catalogue.fields name field count) :
    (catalogue.withDistance distance).lookup field.name = .ok field := by
  simp only [Source.lookup, withDistance, nearest.find?_name]

/-- A name that no field has is refused with the suggestion for it. -/
theorem lookup_eq_error (distance : String → String → Nat)
    (unknown : ∀ field ∈ catalogue.fields, field.name ≠ name) :
    (catalogue.withDistance distance).lookup name =
      .error (.unknownField name (suggestion? distance catalogue.fields name)) := by
  have absent : catalogue.fields.find? (·.name == name) = none := by
    simpa [List.find?_eq_none] using unknown
  simp only [Source.lookup, withDistance, absent]

/-- A name that no field has is refused, when it is looked up and when a condition is composed.
By every distance that counts the edits, a name is suggested exactly if the least number of edits
that lead to the name of a field is three or fewer.  It is the name of the first field that is so
near, it differs from the one that was asked for, and it finds this field. -/
theorem lookup_of_unknown (counts : CountsEdits distance)
    (unknown : ∀ field ∈ catalogue.fields, field.name ≠ name) :
    let source := catalogue.withDistance distance
    ∃ suggestion, source.lookup name = .error (.unknownField name suggestion) ∧
      (∀ comparison raw,
        source.compose name comparison raw = .error (.unknownField name suggestion)) ∧
      ((∃ suggested, suggestion = some suggested) ↔
        ∃ least ≤ 3, IsLeast (editCounts catalogue.fields name) least) ∧
      (suggestion = none ↔ ∀ count ∈ editCounts catalogue.fields name, 3 < count) ∧
      ∀ suggested, suggestion = some suggested → suggested ≠ name ∧
        ∃ field least, IsNearest catalogue.fields name field least ∧ field.name = suggested ∧
          source.lookup suggested = .ok field := by
  intro source
  have refused : source.lookup name = _ := lookup_eq_error distance unknown
  refine ⟨suggestion? distance catalogue.fields name, refused, source.compose_eq_error refused,
    ?_, suggestion?_eq_none_iff counts unknown, ?_⟩
  · constructor
    · rintro ⟨suggested, found⟩
      obtain ⟨field, count, nearest, near, -⟩ := (suggestion?_eq_some_iff counts unknown).1 found
      exact ⟨count, near, nearest.isLeast⟩
    · rintro ⟨least, near, isLeast⟩
      obtain ⟨field, count, nearest⟩ := exists_isNearest_of_mem isLeast.1
      obtain rfl := nearest.isLeast.unique isLeast
      exact ⟨field.name,
        (suggestion?_eq_some_iff counts unknown).2 ⟨field, count, nearest, near, rfl⟩⟩
  · intro suggested found
    obtain ⟨field, count, nearest, -, rfl⟩ := (suggestion?_eq_some_iff counts unknown).1 found
    exact ⟨unknown field nearest.mem, field, count, nearest, rfl, lookup_of_isNearest nearest⟩

/-- One edit leads from `acto` to `actor`, a name that two fields have, and to `acts`. -/
theorem lookup_of_unknown_tie :
    let catalogue := ofFields
      [⟨"", .text⟩, ⟨"factor", .text⟩, ⟨"actor", .keyword⟩, ⟨"acts", .text⟩, ⟨"actor", .int⟩]
    CountsEdits nameDistance ∧ (∀ field ∈ catalogue.fields, field.name ≠ "acto") ∧
      catalogue.lookup "acto" = .error (.unknownField "acto" (some "actor")) ∧
      catalogue.lookup "actor" = .ok ⟨"actor", .keyword⟩ ∧
      ∃ least, IsNearest catalogue.fields "acto" ⟨"actor", .keyword⟩ least := by
  intro catalogue
  have unknown : ∀ field ∈ catalogue.fields, field.name ≠ "acto" := by decide
  have refused : catalogue.lookup "acto" = .error (.unknownField "acto" (some "actor")) := by
    decide +kernel
  have known : catalogue.lookup "actor" = .ok ⟨"actor", .keyword⟩ := by decide +kernel
  obtain ⟨suggestion, told, -, -, -, usable⟩ :=
    lookup_of_unknown countsEdits_nameDistance unknown
  obtain rfl : suggestion = some "actor" := by
    cases refused.symm.trans told
    rfl
  obtain ⟨-, field, least, nearest, -, found⟩ := usable "actor" rfl
  obtain rfl : ⟨"actor", .keyword⟩ = field := Except.ok.inj (known.symm.trans found)
  exact ⟨countsEdits_nameDistance, unknown, refused, known, least, nearest⟩

end Catalogue

end SearchQuery.Field
