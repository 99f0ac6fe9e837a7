import SearchQuery.Query.Filter

/-!
# Left nesting

A chain is joined by one connective, and its operands have another connective at their
root, or none.  The left nested form of a filter keeps every chain with its operands in
their order (`operands_leftNested`) and nests it to the left, so it is determined by them
(`joinAll_operands_leftNested`).  A filter is its own left nested form exactly when no right
side has the connective above it (`leftNested_eq_self_iff`).

Two filters have the same left nested form exactly when rotations within chains lead from
one to the other (`leftNested_eq_iff_regroups`).  A rotation keeps the conditions in their
order and does not show in the text.
-/

namespace SearchQuery.Query.Filter

/-- The outermost connective. -/
def root? : Filter → Option Connective
  | leaf _ => none
  | combine connective _ _ => some connective

/-- The operands of the chain of the connective at the root, from left to right.  A filter
with another root is the only one. -/
def operands (connective : Connective) : Filter → List Filter
  | leaf condition => [leaf condition]
  | combine other left right =>
      if other = connective then left.operands connective ++ right.operands connective
      else [combine other left right]

/-- The filter with all its chains nested to the left. -/
def leftNested : Filter → Filter
  | leaf condition => leaf condition
  | combine connective left right =>
      (right.leftNested.operands connective).foldl (combine connective) left.leftNested

/-- No right side has the connective above it. -/
def IsLeftNested : Filter → Prop
  | leaf _ => True
  | combine connective left right =>
      left.IsLeftNested ∧ right.IsLeftNested ∧ right.root? ≠ some connective

variable {connective : Connective} {filter first : Filter} {rest : List Filter}

/-! ## Operands of a chain -/

@[simp]
theorem operands_leaf (connective : Connective) (condition : Condition) :
    (leaf condition).operands connective = [leaf condition] :=
  rfl

@[simp]
theorem operands_combine_self (connective : Connective) (left right : Filter) :
    (combine connective left right).operands connective =
      left.operands connective ++ right.operands connective :=
  if_pos rfl

theorem root?_combine_ne {word : Connective} (different : word ≠ connective)
    (left right : Filter) : (combine word left right).root? ≠ some connective :=
  fun same => different (Option.some.inj same)

theorem operands_of_root?_ne (other : filter.root? ≠ some connective) :
    filter.operands connective = [filter] := by
  cases filter with
  | leaf condition => rfl
  | combine word left right => exact if_neg fun same => other (congrArg some same)

theorem root?_ne_of_mem_operands {operand : Filter}
    (mem : operand ∈ filter.operands connective) : operand.root? ≠ some connective := by
  induction filter with
  | leaf condition =>
      rw [List.mem_singleton.1 mem]
      simp [root?]
  | combine word left right ihLeft ihRight =>
      unfold operands at mem
      split at mem
      · exact (List.mem_append.1 mem).elim ihLeft ihRight
      · next other =>
          rw [List.mem_singleton.1 mem]
          exact root?_combine_ne other left right

theorem isLeftNested_of_mem_operands {operand : Filter} (nested : filter.IsLeftNested)
    (mem : operand ∈ filter.operands connective) : operand.IsLeftNested := by
  induction filter with
  | leaf condition => rwa [List.mem_singleton.1 mem]
  | combine word left right ihLeft ihRight =>
      unfold operands at mem
      split at mem
      · exact (List.mem_append.1 mem).elim (ihLeft nested.1) (ihRight nested.2.1)
      · rwa [List.mem_singleton.1 mem]

theorem operands_ne_nil (connective : Connective) (filter : Filter) :
    filter.operands connective ≠ [] := by
  induction filter with
  | leaf condition => simp
  | combine word left right ihLeft ihRight =>
      unfold operands
      split
      · simp [ihLeft]
      · simp

/-! ## Joining a chain from the left -/

theorem operands_foldl (others : ∀ operand ∈ rest, operand.root? ≠ some connective) :
    (rest.foldl (combine connective) first).operands connective =
      first.operands connective ++ rest := by
  induction rest generalizing first with
  | nil => simp
  | cons next rest ih =>
      rcases List.forall_mem_cons.1 others with ⟨other, others⟩
      rw [List.foldl_cons, ih others, operands_combine_self, operands_of_root?_ne other,
        List.append_assoc, List.singleton_append]

theorem isLeftNested_foldl (nested : first.IsLeftNested)
    (all : ∀ operand ∈ rest, operand.IsLeftNested)
    (others : ∀ operand ∈ rest, operand.root? ≠ some connective) :
    (rest.foldl (combine connective) first).IsLeftNested := by
  induction rest generalizing first with
  | nil => exact nested
  | cons next rest ih =>
      rcases List.forall_mem_cons.1 all with ⟨nextNested, all⟩
      rcases List.forall_mem_cons.1 others with ⟨other, others⟩
      exact ih ⟨nested, nextNested, other⟩ all others

theorem root?_foldl (nonempty : rest ≠ []) :
    (rest.foldl (combine connective) first).root? = some connective := by
  induction rest generalizing first with
  | nil => exact absurd rfl nonempty
  | cons next rest ih =>
      cases rest with
      | nil => rfl
      | cons => exact ih (List.cons_ne_nil _ _)

/-- More operands are joined behind those that are joined already. -/
theorem joinAll_append {filters : List Filter} (joined : joinAll connective filters = some first)
    (rest : List Filter) :
    joinAll connective (filters ++ rest) = some (rest.foldl (combine connective) first) := by
  cases filters with
  | nil => cases joined
  | cons head filters =>
      rw [joinAll, Option.some.injEq] at joined
      rw [List.cons_append, joinAll, List.foldl_append, joined]

/-- A left nested filter is its operands joined from the left. -/
theorem joinAll_operands (connective : Connective) (nested : filter.IsLeftNested) :
    joinAll connective (filter.operands connective) = some filter := by
  induction filter with
  | leaf condition => rfl
  | combine word left right ihLeft ihRight =>
      unfold operands
      split
      · next same =>
          subst same
          rw [operands_of_root?_ne nested.2.2]
          exact joinAll_append (ihLeft nested.1) [right]
      · rfl

/-! ## The left nested form -/

theorem root?_leftNested (filter : Filter) : filter.leftNested.root? = filter.root? := by
  cases filter with
  | leaf condition => rfl
  | combine word left right => exact root?_foldl (operands_ne_nil word right.leftNested)

/-- The operands of a chain stay as they are, up to the nesting within them. -/
theorem operands_leftNested (connective : Connective) (filter : Filter) :
    filter.leftNested.operands connective = (filter.operands connective).map leftNested := by
  induction filter with
  | leaf condition => rfl
  | combine word left right ihLeft ihRight =>
      by_cases same : word = connective
      · subst same
        rw [leftNested, operands_foldl fun operand => root?_ne_of_mem_operands, ihLeft, ihRight,
          operands_combine_self, List.map_append]
      · have other := root?_combine_ne same left right
        have otherNested : (combine word left right).leftNested.root? ≠ some connective := by
          rwa [root?_leftNested]
        rw [operands_of_root?_ne other, operands_of_root?_ne otherNested]
        rfl

theorem isLeftNested_leftNested (filter : Filter) : filter.leftNested.IsLeftNested := by
  induction filter with
  | leaf condition => trivial
  | combine word left right ihLeft ihRight =>
      exact isLeftNested_foldl ihLeft (fun operand => isLeftNested_of_mem_operands ihRight)
        fun operand => root?_ne_of_mem_operands

/-- The left nested form is determined by the operands of the chain at the root, each in its
own left nested form. -/
theorem joinAll_operands_leftNested (connective : Connective) (filter : Filter) :
    joinAll connective ((filter.operands connective).map leftNested) =
      some filter.leftNested := by
  rw [← operands_leftNested]
  exact joinAll_operands connective (isLeftNested_leftNested filter)

/-- A filter is its own left nested form exactly when it is left nested. -/
theorem leftNested_eq_self_iff : filter.leftNested = filter ↔ filter.IsLeftNested := by
  constructor
  · intro same
    rw [← same]
    exact isLeftNested_leftNested filter
  · intro nested
    induction filter with
    | leaf condition => rfl
    | combine word left right ihLeft ihRight =>
        rw [leftNested, ihLeft nested.1, ihRight nested.2.1, operands_of_root?_ne nested.2.2]
        rfl

/-! ## Regrouping -/

/-- The filters differ only in the nesting of their chains. -/
inductive Regroups : Filter → Filter → Prop
  | refl (filter : Filter) : Regroups filter filter
  | symm {first second : Filter} (regroups : Regroups first second) : Regroups second first
  | trans {first second third : Filter} (regroups : Regroups first second)
      (further : Regroups second third) : Regroups first third
  | congr {connective : Connective} {left left' right right' : Filter}
      (regroupsLeft : Regroups left left') (regroupsRight : Regroups right right') :
      Regroups (combine connective left right) (combine connective left' right')
  | rotate (connective : Connective) (first second third : Filter) :
      Regroups (combine connective (combine connective first second) third)
        (combine connective first (combine connective second third))

/-- The operands of a right side can be joined one by one. -/
theorem regroups_foldl_operands (connective : Connective) (first last : Filter) :
    Regroups ((last.operands connective).foldl (combine connective) first)
      (combine connective first last) := by
  induction last generalizing first with
  | leaf condition => exact .refl _
  | combine word left right ihLeft ihRight =>
      by_cases same : word = connective
      · subst same
        rw [operands_combine_self, List.foldl_append]
        apply Regroups.trans (ihRight _)
        apply Regroups.trans (.congr (ihLeft first) (.refl right))
        exact .rotate word first left right
      · rw [operands_of_root?_ne (root?_combine_ne same left right)]
        exact .refl _

theorem regroups_leftNested (filter : Filter) : Regroups filter filter.leftNested := by
  induction filter with
  | leaf condition => exact .refl _
  | combine word left right ihLeft ihRight =>
      apply Regroups.trans (.congr ihLeft ihRight)
      exact (regroups_foldl_operands word left.leftNested right.leftNested).symm

/-- The left nested form is the only one in its class. -/
theorem leftNested_eq_iff_regroups {second : Filter} :
    first.leftNested = second.leftNested ↔ Regroups first second := by
  constructor
  · intro same
    apply Regroups.trans (regroups_leftNested first)
    rw [same]
    exact (regroups_leftNested second).symm
  · intro regroups
    induction regroups with
    | refl filter => rfl
    | symm regroups ih => exact ih.symm
    | trans regroups further ih ihFurther => exact ih.trans ihFurther
    | congr regroupsLeft regroupsRight ihLeft ihRight =>
        rw [leftNested, leftNested, ihLeft, ihRight]
    | rotate connective first second third =>
        have joined : (combine connective second third).leftNested.operands connective =
            second.leftNested.operands connective ++ third.leftNested.operands connective :=
          operands_foldl fun operand => root?_ne_of_mem_operands
        rw [leftNested, leftNested, leftNested, joined, List.foldl_append]

/-! ## What regrouping keeps -/

theorem Regroups.root?_eq {second : Filter} (regroups : Regroups first second) :
    first.root? = second.root? := by
  induction regroups with
  | refl filter => rfl
  | symm regroups ih => exact ih.symm
  | trans regroups further ih ihFurther => exact ih.trans ihFurther
  | congr regroupsLeft regroupsRight => rfl
  | rotate connective first second third => rfl

/-- No condition is lost, repeated or moved. -/
theorem Regroups.conditions_eq {second : Filter} (regroups : Regroups first second) :
    first.conditions = second.conditions := by
  induction regroups with
  | refl filter => rfl
  | symm regroups ih => exact ih.symm
  | trans regroups further ih ihFurther => exact ih.trans ihFurther
  | congr regroupsLeft regroupsRight ihLeft ihRight => rw [conditions, conditions, ihLeft, ihRight]
  | rotate connective first second third => simp [conditions]

/-- The root decides how tightly a filter binds. -/
theorem precedence_eq_of_root?_eq {other : Filter} (same : filter.root? = other.root?) :
    filter.precedence = other.precedence := by
  cases filter with
  | leaf condition =>
      cases other with
      | leaf other => rfl
      | combine => cases same
  | combine word left right =>
      cases other with
      | leaf other => cases same
      | combine word' left' right' =>
          cases same
          rfl

/-- The text of a filter as an operand of the connective. -/
def renderUnder (connective : Connective) (filter : Filter) : String :=
  parenthesize (filter.precedence < connective.precedence) filter.render

theorem render_combine (connective : Connective) (left right : Filter) :
    (combine connective left right).render =
      left.renderUnder connective ++ (" " ++ connective.word ++ " ") ++
        right.renderUnder connective :=
  rfl

/-- A chain stands without parentheses in a chain of the same connective. -/
theorem renderUnder_combine_self (connective : Connective) (left right : Filter) :
    (combine connective left right).renderUnder connective =
      (combine connective left right).render := by
  simp [renderUnder, parenthesize, precedence]

theorem renderUnder_congr {other : Filter} (root : filter.root? = other.root?)
    (text : filter.render = other.render) (connective : Connective) :
    filter.renderUnder connective = other.renderUnder connective := by
  rw [renderUnder, renderUnder, precedence_eq_of_root?_eq root, text]

/-- Nesting leaves no trace in the text. -/
theorem Regroups.render_eq {second : Filter} (regroups : Regroups first second) :
    first.render = second.render := by
  induction regroups with
  | refl filter => rfl
  | symm regroups ih => exact ih.symm
  | trans regroups further ih ihFurther => exact ih.trans ihFurther
  | congr regroupsLeft regroupsRight ihLeft ihRight =>
      rw [render_combine, render_combine, renderUnder_congr regroupsLeft.root?_eq ihLeft,
        renderUnder_congr regroupsRight.root?_eq ihRight]
  | rotate connective first second third =>
      rw [render_combine, renderUnder_combine_self, render_combine,
        render_combine connective first, renderUnder_combine_self, render_combine]
      simp only [String.append_assoc]

theorem conditions_leftNested (filter : Filter) :
    filter.leftNested.conditions = filter.conditions :=
  (regroups_leftNested filter).conditions_eq.symm

theorem render_leftNested (filter : Filter) : filter.leftNested.render = filter.render :=
  (regroups_leftNested filter).render_eq.symm

end SearchQuery.Query.Filter
