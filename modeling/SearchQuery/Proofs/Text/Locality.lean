import SearchQuery.Proofs.Text.Extent
import SearchQuery.Text.Cut

/-!
# A cut does not look beyond its pieces

A scanner that takes the longest piece may look at one character behind the piece,
but no further (`IsLocal`).  So a text can be taken apart and put together between
two pieces.  The pieces in front are those of the text in front
(`IsLocal.cut_flatMap`), and text that is typed behind the last piece changes no
piece but that one (`IsLocal.cut_append`).
-/

namespace SearchQuery.Text

universe u v

variable {κ : Type u}

/-- The answer for one piece depends on the text only as far as the piece reaches and
on whether it goes on there: the piece stays as it is when text is added behind a
further character, and when the text behind the piece is taken away. -/
structure IsLocal (answer : List Char → κ × Nat) : Prop where
  fits : ∀ rest, (answer rest).2 ≤ rest.length
  append_eq : ∀ rest more, (answer rest).2 < rest.length → answer (rest ++ more) = answer rest
  eq_append : ∀ rest more, (answer (rest ++ more)).2 ≤ rest.length →
    answer rest = answer (rest ++ more)

/-! ## Answers that are local -/

/-- A piece of one character that does not look behind itself. -/
theorem isLocal_single (kind : κ) : IsLocal fun _ => (kind, 0) where
  fits _ := Nat.zero_le _
  append_eq _ _ _ := rfl
  eq_append _ _ _ := rfl

/-- Two scanners, of which one is chosen by the first character alone. -/
theorem isLocal_ite {condition : Prop} [Decidable condition] {first second : List Char → κ × Nat}
    (localFirst : IsLocal first) (localSecond : IsLocal second) :
    IsLocal fun rest => if condition then first rest else second rest := by
  by_cases holds : condition
  · simpa only [if_pos holds] using localFirst
  · simpa only [if_neg holds] using localSecond

section Runs

variable {isIn : Char → Bool} {rest : List Char}

theorem length_takeWhile_le (isIn : Char → Bool) (rest : List Char) :
    (rest.takeWhile isIn).length ≤ rest.length :=
  (List.takeWhile_prefix isIn).length_le

/-- A run that ends in the text ends there whatever is added. -/
theorem takeWhile_append_of_lt (ends : (rest.takeWhile isIn).length < rest.length)
    (more : List Char) : (rest ++ more).takeWhile isIn = rest.takeWhile isIn := by
  rw [List.takeWhile_append, if_neg (Nat.ne_of_lt ends)]

theorem dropWhile_append_of_lt (ends : (rest.takeWhile isIn).length < rest.length)
    (more : List Char) :
    (rest ++ more).dropWhile isIn = rest.dropWhile isIn ++ more := by
  have nonempty : rest.dropWhile isIn ≠ [] := by
    intro none
    have whole := List.takeWhile_append_dropWhile (p := isIn) (l := rest)
    rw [none, List.append_nil] at whole
    rw [whole] at ends
    exact Nat.lt_irrefl _ ends
  rw [List.dropWhile_append, if_neg (by simpa using nonempty)]

/-- A run that does not reach the text behind is there without that text. -/
theorem takeWhile_eq_append {more : List Char}
    (ends : ((rest ++ more).takeWhile isIn).length ≤ rest.length) :
    rest.takeWhile isIn = (rest ++ more).takeWhile isIn := by
  rw [List.takeWhile_append]
  split
  · next whole =>
      rw [List.takeWhile_append, if_pos whole, List.length_append] at ends
      have none : more.takeWhile isIn = [] := List.eq_nil_of_length_eq_zero (by omega)
      rw [none, List.append_nil]
      exact (List.takeWhile_prefix isIn).eq_of_length whole
  · rfl

/-- A piece that goes on with the characters of one class. -/
theorem isLocal_run (kind : κ) (isIn : Char → Bool) :
    IsLocal fun rest => (kind, (rest.takeWhile isIn).length) where
  fits := length_takeWhile_le isIn
  append_eq rest more ends := by rw [takeWhile_append_of_lt ends]
  eq_append rest more ends := by rw [takeWhile_eq_append ends]

end Runs

/-- A piece that goes on to the first closing delimiter, or to the end of the text if there is
none. -/
theorem isLocal_closing (delimiter : Char) (closed opened : κ) :
    IsLocal fun rest =>
      (Delimited.closing? delimiter rest).elim (opened, rest.length) (closed, ·) := by
  have inside {front : List Char} (absent : delimiter ∉ front) (rest : List Char) :
      (Delimited.closing? delimiter (front ++ delimiter :: rest)).elim
        (opened, (front ++ delimiter :: rest).length) (closed, ·) =
          (closed, front.length + 1) := by
    rw [Delimited.closing?_append absent, Option.elim_some]
  have missing {rest : List Char} (absent : delimiter ∉ rest) :
      (Delimited.closing? delimiter rest).elim (opened, rest.length) (closed, ·) =
        (opened, rest.length) := by
    rw [Delimited.closing?_of_not_mem absent, Option.elim_none]
  refine ⟨fun rest => ?_, fun rest more ends => ?_, fun rest more ends => ?_⟩
  · by_cases mem : delimiter ∈ rest
    · rcases List.eq_append_cons_of_mem mem with ⟨front, behind, rfl, absent⟩
      rw [inside absent, List.length_append, List.length_cons]
      omega
    · exact Nat.le_of_eq (congrArg Prod.snd (missing mem))
  · by_cases mem : delimiter ∈ rest
    · rcases List.eq_append_cons_of_mem mem with ⟨front, behind, rfl, absent⟩
      rw [List.append_assoc, List.cons_append, inside absent, inside absent]
    · rw [missing mem] at ends
      exact absurd ends (Nat.lt_irrefl _)
  · by_cases mem : delimiter ∈ rest
    · rcases List.eq_append_cons_of_mem mem with ⟨front, behind, rfl, absent⟩
      rw [List.append_assoc, List.cons_append, inside absent, inside absent]
    · by_cases later : delimiter ∈ more
      · rcases List.eq_append_cons_of_mem later with ⟨front, behind, rfl, absent⟩
        have outside : delimiter ∉ rest ++ front := by simp [mem, absent]
        rw [← List.append_assoc, inside outside, List.length_append] at ends
        omega
      · have outside : delimiter ∉ rest ++ more := by simp [mem, later]
        rw [missing outside, List.length_append] at ends
        rw [List.eq_nil_of_length_eq_zero (show more.length = 0 by omega), List.append_nil]

/-! ## Cutting text that is put together -/

section Cut

variable {head : Char → List Char → κ × Nat} {text : List Char}

/-- The first piece of a cut, and the cut of the text behind it. -/
theorem exists_of_cut_eq_cons {piece : Piece κ} {pieces : List (Piece κ)}
    (found : cut head text = piece :: pieces) :
    ∃ c rest, text = c :: rest ∧
      piece = ⟨(head c rest).1, c :: rest.take (head c rest).2⟩ ∧
        cut head (rest.drop (head c rest).2) = pieces := by
  cases text with
  | nil => simp at found
  | cons c rest =>
      rw [cut_cons, List.cons.injEq] at found
      exact ⟨c, rest, rfl, found.1.symm, found.2⟩

/-- The text is cut where its pieces say. -/
theorem eq_append_of_cut {before behind : List (Piece κ)}
    (pieces : cut head text = before ++ behind) :
    text = before.flatMap Piece.text ++ behind.flatMap Piece.text := by
  rw [← List.flatMap_append, ← pieces, flatMap_text_cut]

variable {before behind : List (Piece κ)}

/-- The pieces behind are those of the text behind. -/
theorem cut_flatMap_behind (pieces : cut head text = before ++ behind) :
    cut head (behind.flatMap Piece.text) = behind := by
  induction before generalizing text with
  | nil =>
      rw [List.nil_append] at pieces
      rw [← pieces, flatMap_text_cut]
  | cons piece before ih =>
      rcases exists_of_cut_eq_cons pieces with ⟨c, rest, -, -, later⟩
      exact ih later

/-- Text that is added at the end changes no piece but the last. -/
theorem IsLocal.cut_append (isLocal : ∀ c, IsLocal (head c))
    (pieces : cut head text = before ++ behind) (nonempty : behind ≠ []) (more : List Char) :
    cut head (text ++ more) =
      before ++ cut head (behind.flatMap Piece.text ++ more) := by
  induction before generalizing text with
  | nil => rw [eq_append_of_cut pieces, List.flatMap_nil, List.nil_append, List.nil_append]
  | cons piece before ih =>
      rcases exists_of_cut_eq_cons pieces with ⟨c, rest, rfl, rfl, later⟩
      -- the piece ends inside the text, since there are pieces behind it
      have inside : (head c rest).2 < rest.length := by
        apply Nat.lt_of_not_le
        intro long
        rw [List.drop_eq_nil_of_le long, cut_nil] at later
        exact nonempty (List.append_eq_nil_iff.1 later.symm).2
      have same := (isLocal c).append_eq rest more inside
      have fits := Nat.le_of_lt inside
      rw [List.cons_append, cut_cons, same, List.take_append_of_le_length fits,
        List.drop_append_of_le_length fits, ih later, List.cons_append]

/-- The pieces in front are those of the text in front. -/
theorem IsLocal.cut_flatMap (isLocal : ∀ c, IsLocal (head c))
    (pieces : cut head text = before ++ behind) :
    cut head (before.flatMap Piece.text) = before := by
  induction before generalizing text with
  | nil => exact cut_nil head
  | cons piece before ih =>
      rcases exists_of_cut_eq_cons pieces with ⟨c, rest, rfl, rfl, later⟩
      have length : (rest.take (head c rest).2).length = (head c rest).2 := by
        rw [List.length_take, Nat.min_eq_left ((isLocal c).fits rest)]
      have rest_eq : rest = rest.take (head c rest).2 ++ before.flatMap Piece.text ++
          behind.flatMap Piece.text := by
        rw [List.append_assoc, ← eq_append_of_cut later, List.take_append_drop]
      have same : head c (rest.take (head c rest).2 ++ before.flatMap Piece.text) =
          head c rest := by
        rw [(isLocal c).eq_append _ (behind.flatMap Piece.text), ← rest_eq]
        rw [← rest_eq, List.length_append, length]
        exact Nat.le_add_right _ _
      rw [List.flatMap_cons, List.cons_append, cut_cons, same, List.take_left' length,
        List.drop_left' length, ih later]

end Cut

/-! ## Positions -/

theorem length_locate (start : Nat) (pieces : List (Piece κ)) :
    (locate start pieces).length = pieces.length := by
  induction pieces generalizing start with
  | nil => rfl
  | cons piece pieces ih => rw [locate_cons, List.length_cons, ih, List.length_cons]

theorem locate_append (start : Nat) (first second : List (Piece κ)) :
    locate start (first ++ second) =
      locate start first ++ locate (start + width (first.flatMap Piece.text)) second := by
  induction first generalizing start with
  | nil => simp
  | cons piece first ih =>
      rw [List.cons_append, locate_cons, locate_cons, ih, List.flatMap_cons, width_append,
        Nat.add_assoc, List.cons_append]

theorem locate_add (distance start : Nat) (pieces : List (Piece κ)) :
    locate (distance + start) pieces =
      (locate start pieces).map fun entry => (distance + entry.1, entry.2) := by
  induction pieces generalizing start with
  | nil => rfl
  | cons piece pieces ih => rw [locate_cons, locate_cons, List.map_cons, Nat.add_assoc, ih]

/-- Located pieces that are split come from pieces that are split. -/
theorem exists_of_locate_eq_append {start : Nat} {pieces : List (Piece κ)}
    {first second : List (Nat × Piece κ)} (found : locate start pieces = first ++ second) :
    ∃ before behind, pieces = before ++ behind ∧ first = locate start before ∧
      second = locate (start + width (before.flatMap Piece.text)) behind := by
  have split := List.take_append_drop first.length pieces
  rw [← split, locate_append] at found
  have fits : first.length ≤ pieces.length := by
    have lengths := congrArg List.length found
    rw [← locate_append, split, length_locate, List.length_append] at lengths
    omega
  have length : (locate start (pieces.take first.length)).length = first.length := by
    rw [length_locate, List.length_take, Nat.min_eq_left fits]
  rcases List.append_inj found length with ⟨front, back⟩
  exact ⟨_, _, split.symm, front.symm, back.symm⟩

/-- Where the answers for the located pieces of a text are split, the text is split.  What is
typed behind the text changes no answer in front, unless all of them are in front. -/
theorem IsLocal.exists_of_map_locate_eq_append {ι : Type v} {head : Char → List Char → κ × Nat}
    (isLocal : ∀ c, IsLocal (head c)) (answer : Nat × Piece κ → ι) {start : Nat}
    {text : List Char} {first second : List ι}
    (found : (locate start (cut head text)).map answer = first ++ second) :
    ∃ front rest, text = front ++ rest ∧ (locate start (cut head front)).map answer = first ∧
      (locate (start + width front) (cut head rest)).map answer = second ∧
      (second ≠ [] → ∀ more, (locate start (cut head (text ++ more))).map answer =
        first ++ (locate (start + width front) (cut head (rest ++ more))).map answer) := by
  rcases List.map_eq_append_iff.1 found with ⟨first, second, located, rfl, rfl⟩
  rcases exists_of_locate_eq_append located with ⟨before, behind, split, rfl, rfl⟩
  refine ⟨before.flatMap Piece.text, behind.flatMap Piece.text, eq_append_of_cut split, ?_, ?_, ?_⟩
  · rw [IsLocal.cut_flatMap isLocal split]
  · rw [cut_flatMap_behind split]
  · intro nonempty more
    have others : behind ≠ [] := by
      rintro rfl
      exact nonempty rfl
    rw [IsLocal.cut_append isLocal split others, locate_append, List.map_append]

end SearchQuery.Text
