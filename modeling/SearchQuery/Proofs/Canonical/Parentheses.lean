import SearchQuery.Proofs.Canonical.RoundTrip

/-!
# No more parentheses than needed

The parentheses in the text of a filter are counted on its tree: one pair for every operand that
binds less tightly than the connective above it (`Filter.parentheses`).  Neither the nesting of
chains nor the values in the conditions change their number.  Whatever tokens the grammar derives
a filter from, they have as many opening parentheses at least (`Derives.parenthesesUnder_le`), so
no query that stands for the filter has fewer of them than its text
(`Filter.openings_render_le`).
-/

namespace SearchQuery.Query

open Text

/-- The number of opening parentheses among the tokens. -/
def openings (tokens : List (Token Tag)) : Nat :=
  tokens.countP (·.tag == .openParen)

@[simp]
theorem openings_append (first second : List (Token Tag)) :
    openings (first ++ second) = openings first + openings second :=
  List.countP_append

theorem openings_le_cons (token : Token Tag) (tokens : List (Token Tag)) :
    openings tokens ≤ openings (token :: tokens) :=
  (List.sublist_cons_self token tokens).countP_le

theorem openings_cons_of_openParen {token : Token Tag} (opening : token.tag = .openParen)
    (tokens : List (Token Tag)) : openings (token :: tokens) = openings tokens + 1 :=
  List.countP_cons_of_pos (by simp [opening])

theorem openings_significant_le (tokens : List (Token Tag)) :
    openings (Filter.significant tokens) ≤ openings tokens :=
  List.filter_sublist.countP_le

/-- The words of tokens have their parentheses. -/
theorem countP_map_ofToken (tokens : List (Token Tag)) :
    (tokens.map Word.ofToken).countP (·.tag == .openParen) = openings tokens :=
  List.countP_map

namespace Filter

/-- The pairs of parentheses in the text of a filter. -/
def parentheses : Filter → Nat
  | leaf _ => 0
  | combine connective left right =>
      (left.parentheses + if left.precedence < connective.precedence then 1 else 0) +
        (right.parentheses + if right.precedence < connective.precedence then 1 else 0)

/-- The pairs of parentheses in the text of a filter as an operand of the connective. -/
def parenthesesUnder (connective : Connective) (filter : Filter) : Nat :=
  filter.parentheses + if filter.precedence < connective.precedence then 1 else 0

theorem parentheses_combine (connective : Connective) (left right : Filter) :
    (combine connective left right).parentheses =
      left.parenthesesUnder connective + right.parenthesesUnder connective :=
  rfl

/-- A chain stands without parentheses in a chain of the same connective. -/
theorem parenthesesUnder_combine_self (connective : Connective) (left right : Filter) :
    (combine connective left right).parenthesesUnder connective =
      left.parenthesesUnder connective + right.parenthesesUnder connective := by
  rw [← parentheses_combine, parenthesesUnder, if_neg (by simp [precedence]), Nat.add_zero]

theorem parenthesesUnder_leaf (connective : Connective) (condition : Condition) :
    (leaf condition).parenthesesUnder connective = 0 := by
  cases connective <;> rfl

/-- No operand of `or` needs parentheses. -/
theorem parenthesesUnder_or (filter : Filter) :
    filter.parenthesesUnder .or = filter.parentheses := by
  rw [parenthesesUnder, if_neg (Nat.not_lt.2 filter.precedence_pos), Nat.add_zero]

theorem parenthesesUnder_le (connective : Connective) (filter : Filter) :
    filter.parenthesesUnder connective ≤ filter.parentheses + 1 := by
  unfold parenthesesUnder
  split <;> omega

theorem parentheses_le_under (connective : Connective) (filter : Filter) :
    filter.parentheses ≤ filter.parenthesesUnder connective :=
  Nat.le_add_right _ _

theorem parenthesesUnder_congr {filter other : Filter} (root : filter.root? = other.root?)
    (count : filter.parentheses = other.parentheses) (connective : Connective) :
    filter.parenthesesUnder connective = other.parenthesesUnder connective := by
  rw [parenthesesUnder, parenthesesUnder, precedence_eq_of_root?_eq root, count]

/-! ## The parentheses of a text -/

theorem countP_parenthesize (needed : Bool) (words : List Word) :
    (Word.parenthesize needed words).countP (·.tag == .openParen) =
      words.countP (·.tag == .openParen) + if needed then 1 else 0 := by
  cases needed with
  | false => rfl
  | true => simp [Word.parenthesize]

/-- The text of a filter has the parentheses that are counted on its tree. -/
theorem countP_words (filter : Filter) :
    filter.words.countP (·.tag == .openParen) = filter.parentheses := by
  induction filter with
  | leaf condition =>
      have value : condition.operand.literal.tag ≠ .openParen := by
        cases condition.operand.literal <;> exact Tag.noConfusion
      simp [words, Condition.words, parentheses, value]
  | combine connective left right ihLeft ihRight =>
      simp only [words, List.countP_append, countP_parenthesize, ihLeft, ihRight,
        decide_eq_true_eq, parentheses]
      rfl

/-! ## What leaves the parentheses as they are -/

theorem parentheses_mapConditions (change : Condition → Condition) (filter : Filter) :
    (filter.mapConditions change).parentheses = filter.parentheses := by
  induction filter with
  | leaf condition => rfl
  | combine connective left right ihLeft ihRight =>
      rw [mapConditions, parentheses_combine, parentheses_combine,
        parenthesesUnder_congr (root?_mapConditions change left) ihLeft,
        parenthesesUnder_congr (root?_mapConditions change right) ihRight]

theorem parentheses_eq_of_same {first second : Filter} (equal : first.same second = true) :
    first.parentheses = second.parentheses := by
  induction first generalizing second with
  | leaf condition =>
      cases second with
      | leaf other => rfl
      | combine => cases equal
  | combine connective left right ihLeft ihRight =>
      cases second with
      | leaf condition => cases equal
      | combine connective' left' right' =>
          simp only [same, Bool.and_eq_true, beq_iff_eq] at equal
          rcases equal with ⟨⟨rfl, equalLeft⟩, equalRight⟩
          rw [parentheses_combine, parentheses_combine,
            parenthesesUnder_congr (root?_eq_of_same equalLeft) (ihLeft equalLeft),
            parenthesesUnder_congr (root?_eq_of_same equalRight) (ihRight equalRight)]

theorem Regroups.parentheses_eq {first second : Filter} (regroups : Regroups first second) :
    first.parentheses = second.parentheses := by
  induction regroups with
  | refl filter => rfl
  | symm regroups ih => exact ih.symm
  | trans regroups further ih ihFurther => exact ih.trans ihFurther
  | congr regroupsLeft regroupsRight ihLeft ihRight =>
      rw [parentheses_combine, parentheses_combine,
        parenthesesUnder_congr regroupsLeft.root?_eq ihLeft,
        parenthesesUnder_congr regroupsRight.root?_eq ihRight]
  | rotate connective first second third =>
      rw [parentheses_combine, parenthesesUnder_combine_self, parentheses_combine,
        parenthesesUnder_combine_self, Nat.add_assoc]

theorem parentheses_leftNested (filter : Filter) :
    filter.leftNested.parentheses = filter.parentheses :=
  (regroups_leftNested filter).parentheses_eq.symm

end Filter

/-! ## The parentheses of a phrase -/

/-- The connective that a phrase of the stratum can be an operand of. -/
def Stratum.above : Stratum → Connective
  | operand => .and
  | chain connective => connective

/-- A part of a chain is an operand of its connective. -/
theorem Filter.parenthesesUnder_le_part (connective : Connective) (filter : Filter) :
    filter.parenthesesUnder connective ≤ filter.parenthesesUnder connective.part.above := by
  cases connective with
  | and => exact Nat.le_refl _
  | or =>
      rw [parenthesesUnder_or]
      exact filter.parentheses_le_under .and

/-- The parentheses of a chain are those of its first filter and of its links. -/
theorem parenthesesUnder_foldl_le {connective : Connective} {filter : Filter} {links : List Link}
    {tokens : List (Token Tag)} (first : filter.parenthesesUnder connective ≤ openings tokens)
    (phrases : ∀ link ∈ links,
      link.filter.parenthesesUnder connective ≤ openings link.phrase) :
    (links.foldl (Link.attach connective) filter).parenthesesUnder connective ≤
      openings (tokens ++ links.flatMap Link.tokens) := by
  induction links generalizing filter tokens with
  | nil => simpa using first
  | cons link links ih =>
      rcases List.forall_mem_cons.1 phrases with ⟨next, phrases⟩
      have attached : (Link.attach connective filter link).parenthesesUnder connective ≤
          openings (tokens ++ link.tokens) := by
        rw [Link.attach, Filter.parenthesesUnder_combine_self, openings_append]
        exact Nat.add_le_add first (Nat.le_trans next (openings_le_cons link.word link.phrase))
      rw [List.foldl_cons, List.flatMap_cons, ← List.append_assoc]
      exact ih attached phrases

/-- A phrase has at least the parentheses that the text of its filter has in the place of the
phrase: an operand that is a chain of `or` stands in a group of its own. -/
theorem Derives.parenthesesUnder_le {stratum : Stratum} {tokens : List (Token Tag)}
    {filter : Filter} (derives : Derives stratum tokens filter) :
    filter.parenthesesUnder stratum.above ≤ openings tokens := by
  induction derives with
  | condition =>
      rw [Filter.parenthesesUnder_leaf]
      exact Nat.zero_le _
  | @group opening closing tokens filter openingTag closingTag inner ih =>
      rw [Stratum.above, Filter.parenthesesUnder_or] at ih
      rw [openings_cons_of_openParen openingTag, openings_append]
      have outer := filter.parenthesesUnder_le Stratum.operand.above
      omega
  | @chain connective tokens filter links first words phrases ih ihPhrases =>
      have part (filter : Filter) := filter.parenthesesUnder_le_part connective
      exact parenthesesUnder_foldl_le (Nat.le_trans (part filter) ih)
        fun link mem => Nat.le_trans (part link.filter) (ihPhrases link mem)

namespace Filter

/-- A query has at least the parentheses of the text of the filter that is read from it. -/
theorem exists_parentheses_le_of_read {query : String} {filter : Filter}
    (found : read query = .ok filter) :
    ∃ written, tokens query = .ok written ∧ filter.parentheses ≤ openings written := by
  obtain ⟨written, scans, run⟩ := read_eq_ok_iff.1 found
  have bound := (Reader.run_eq_ok_iff.1 run).parenthesesUnder_le
  rw [Stratum.above, parenthesesUnder_or] at bound
  exact ⟨written, scans, Nat.le_trans bound (openings_significant_le written)⟩

/-- The text of a filter has as few parentheses as any query that stands for the filter, up to
the nesting of its chains and to the double quotes in its strings. -/
theorem openings_render_le {filter reread : Filter} {query : String}
    (printable : filter.IsPrintable) (found : read query = .ok reread)
    (equal : reread.leftNested.same filter.leftNested.written = true) :
    ∃ printed written, tokens filter.render = .ok printed ∧ tokens query = .ok written ∧
      openings printed ≤ openings written := by
  obtain ⟨printed, scans, words⟩ := exists_tokens_render printable
  obtain ⟨written, queryScans, bound⟩ := exists_parentheses_le_of_read found
  refine ⟨printed, written, scans, queryScans, ?_⟩
  calc
    openings printed = filter.parentheses := by
      rw [← countP_map_ofToken, words, countP_words]
    _ = filter.leftNested.written.parentheses := by
      rw [Filter.written, parentheses_mapConditions, parentheses_leftNested]
    _ = reread.parentheses := by
      rw [← parentheses_eq_of_same equal, parentheses_leftNested]
    _ ≤ openings written := bound

/-- The query `((a=1 or b=2) and (c=3)) and ((d=4 or e=5))` has five pairs of parentheses; the text
of a filter for which it stands, nested otherwise, has two. -/
theorem openings_render_le_nested :
    let equals (field : String) (value : Int64) := Condition.ofLiteral field .equal (.int value)
    let first := combine .or (leaf (equals "a" 1)) (leaf (equals "b" 2))
    let last := combine .or (leaf (equals "d" 4)) (leaf (equals "e" 5))
    let filter := combine .and first (combine .and (leaf (equals "c" 3)) last)
    let query := "((a=1 or b=2) and (c=3)) and ((d=4 or e=5))"
    filter.IsPrintable ∧ filter.render = "(a=1 or b=2) and c=3 and (d=4 or e=5)" ∧
      ∃ reread printed written, read query = .ok reread ∧
        reread.leftNested.same filter.leftNested.written = true ∧
        tokens filter.render = .ok printed ∧ tokens query = .ok written ∧
        openings printed ≤ openings written := by
  intro equals first last filter query
  have printable : filter.IsPrintable := by
    intro condition mem
    simp only [filter, first, last, conditions, List.cons_append, List.nil_append,
      List.mem_cons, List.not_mem_nil, or_false] at mem
    rcases mem with rfl | rfl | rfl | rfl | rfl <;> exact ⟨by decide, by decide, trivial⟩
  have rendered : filter.render = "(a=1 or b=2) and c=3 and (d=4 or e=5)" := by decide +kernel
  have stands : (read query).toOption.any (·.leftNested.same filter.leftNested.written) = true := by
    decide +kernel
  cases found : read query with
  | error error =>
      rw [found] at stands
      cases stands
  | ok reread =>
      rw [found] at stands
      obtain ⟨printed, written, scans, queryScans, bound⟩ :=
        openings_render_le printable found stands
      exact ⟨printable, rendered, reread, printed, written, rfl, stands, scans, queryScans, bound⟩

end Filter

end SearchQuery.Query
