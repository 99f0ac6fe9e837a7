import Mathlib.Data.List.Forall2
import SearchQuery.Proofs.Scan.Longest

/-!
# Closing the last piece of a text

Some characters begin a token and go on none (`openers`).  Text that begins with one of them
can be put behind any other text without running together with the last piece of it, with
one exception: a delimiter that is not closed takes all that follows.  Such a piece is closed
first, and becomes the literal that it was meant to be (`exists_closing`).
-/

namespace SearchQuery.Query

open Text

/-- Characters that begin a token and go on none. -/
def openers : List Char :=
  ['(', ')', '!', '"']

/-- The text is empty, or a new token begins with it whatever stands in front. -/
def StartsToken (text : List Char) : Prop :=
  ∀ c ∈ text.head?, c ∈ openers

theorem startsToken_cons {c : Char} (mem : c ∈ openers) (rest : List Char) :
    StartsToken (c :: rest) := by
  simpa [StartsToken] using mem

theorem Tag.goesOn_of_mem_openers (tag : Tag) {c : Char} (mem : c ∈ openers) :
    tag.goesOn c = false := by
  have none : openers.all (fun c => !tag.goesOn c) = true := by
    cases tag with
    | comparison sign => cases sign <;> rfl
    | literal kind => cases kind <;> rfl
    | connective word => cases word <;> rfl
    | _ => rfl
  simpa using List.all_eq_true.1 none c mem

theorem StartsToken.stops {text : List Char} (starts : StartsToken text) (tag : Tag) :
    StartsOutside tag.goesOn text :=
  fun c mem => tag.goesOn_of_mem_openers (starts c mem)

theorem StartsToken.startsOutside_equals {text : List Char} (starts : StartsToken text) :
    StartsOutside (· == '=') text := by
  have none : openers.all (fun c => !(c == '=')) = true := rfl
  intro c mem
  simpa using List.all_eq_true.1 none c (starts c mem)

/-! ## How a piece is at fault -/

/-- If the answer for a piece that begins with `c` is a fault, then the piece is that one
character also when a new token begins behind it, or `c` is a delimiter. -/
def FailsOpenly (c : Char) (answer : List Char → Head) : Prop :=
  ∀ rest fault, (answer rest).1 = .error fault →
    ((answer rest).2 = 0 ∧ ∀ more, StartsToken more → answer more = (.error fault, 0)) ∨
      ∃ kind, answer = delimited c kind fault

section Fails

variable {c : Char}

/-- An answer that is never a fault. -/
theorem failsOpenly_of_ok {answer : List Char → Head}
    (succeeds : ∀ rest, ∃ shape, (answer rest).1 = .ok shape) : FailsOpenly c answer := by
  intro rest fault failed
  rcases succeeds rest with ⟨shape, found⟩
  cases found.symm.trans failed

theorem failsOpenly_single (kind : Except Fault Shape) :
    FailsOpenly c fun _ => (kind, 0) := by
  intro rest fault failed
  cases failed
  exact .inl ⟨rfl, fun _ _ => rfl⟩

theorem failsOpenly_beforeEquals (alone : Except Fault Shape) (joined : Shape) :
    FailsOpenly c fun rest => beforeEquals rest alone (.ok joined) := by
  intro rest fault failed
  dsimp only at failed ⊢
  have answer : beforeEquals rest alone (.ok joined) = (alone, 0) := by
    cases rest with
    | nil => rfl
    | cons next rest =>
        rw [beforeEquals_cons] at failed ⊢
        by_cases equals : next = '='
        · rw [if_pos equals] at failed
          cases failed
        · rw [if_neg equals]
  rw [answer] at failed ⊢
  obtain rfl : alone = .error fault := failed
  exact .inl ⟨rfl, fun more starts =>
    beforeEquals_of_startsOutside starts.startsOutside_equals _ _⟩

theorem failsOpenly_delimited (kind : LiteralKind) (fault : Fault) :
    FailsOpenly c (delimited c kind fault) := by
  intro rest other failed
  by_cases mem : c ∈ rest
  · rcases List.eq_append_cons_of_mem mem with ⟨inside, behind, rfl, absent⟩
    rw [delimited_append absent] at failed
    cases failed
  · rw [delimited_of_not_mem mem] at failed
    cases failed
    exact .inr ⟨kind, rfl⟩

theorem failsOpenly_number : FailsOpenly c number := by
  apply failsOpenly_of_ok
  intro rest
  by_cases point : (rest.dropWhile Char.isDigit).head? = some '.'
  · rcases List.head?_eq_some_iff.1 point with ⟨places, found⟩
    exact ⟨_, congrArg Prod.fst (number_of_point found)⟩
  · exact ⟨_, congrArg Prod.fst (number_of_no_point point)⟩

/-- Every fault of the scan is one character or a delimiter that is not closed. -/
theorem failsOpenly_head (c : Char) : FailsOpenly c (head c) := by
  apply head_cases (motive := FailsOpenly c) c
  case openParen | closeParen | equal => exact fun _ => failsOpenly_single _
  case notEqual | fuzzy | greater | less => exact fun _ => failsOpenly_beforeEquals _ _
  case string | regexp => exact fun _ => failsOpenly_delimited _ _
  case blank | word => exact fun _ => failsOpenly_of_ok fun rest => ⟨_, rfl⟩
  case number => exact fun _ => failsOpenly_number
  case unknown => exact fun _ _ _ => failsOpenly_single _

end Fails

/-! ## Closing a piece -/

/-- What may become of the tag of a piece that is closed: a fault can turn out to be a
literal. -/
inductive Closes : Tag → Tag → Prop
  | same (tag : Tag) : Closes tag tag
  | literal (kind : LiteralKind) : Closes .error (.literal kind)

/-- The first piece of a text can be closed so that a new token can begin behind it. -/
theorem exists_closing_head (c : Char) (rest : List Char) :
    ∃ closing, ∀ more, StartsToken more → ∃ closed,
      Closes (pieceTag ⟨(head c rest).1, c :: rest.take (head c rest).2⟩) (pieceTag closed) ∧
        cut head (c :: rest.take (head c rest).2 ++ (closing ++ more)) =
          closed :: cut head more := by
  cases found : (head c rest).1 with
  | ok shape =>
      have spells := isSpelled_head c rest shape found
      refine ⟨[], fun more starts => ?_⟩
      obtain ⟨shape', tag_eq, pieces⟩ := cut_append_of_spells spells (starts.stops _)
      have tag_same : pieceTag ⟨.ok shape', c :: rest.take (head c rest).2⟩ =
          pieceTag ⟨.ok shape, c :: rest.take (head c rest).2⟩ := tag_eq
      exact ⟨_, tag_same ▸ .same _, pieces⟩
  | error fault =>
      rcases failsOpenly_head c rest fault found with ⟨single, stays⟩ | ⟨kind, answer⟩
      · refine ⟨[], fun more starts => ⟨⟨.error fault, [c]⟩, .same _, ?_⟩⟩
        rw [single, List.take_zero, List.nil_append, List.singleton_append, cut_cons,
          stays more starts, List.take_zero, List.drop_zero]
      · have absent : c ∉ rest := by
          intro mem
          rcases List.eq_append_cons_of_mem mem with ⟨inside, behind, rfl, absent⟩
          rw [answer, delimited_append absent] at found
          cases found
        refine ⟨[c], fun more _ =>
          ⟨⟨.ok (.plain (.literal kind)), c :: (rest ++ [c])⟩, .literal kind, ?_⟩⟩
        have length : (rest ++ [c]).length = rest.length + 1 := by simp
        have split : rest ++ c :: more = (rest ++ [c]) ++ more := by simp
        rw [answer, delimited_of_not_mem absent, List.take_length, List.singleton_append,
          List.cons_append, cut_cons, answer, delimited_append absent, split,
          List.take_left' length, List.drop_left' length]

/-- Any text can be closed so that a new token can begin behind it.  This changes the tag of
the last piece at most. -/
theorem exists_closing (text : List Char) :
    ∃ closing, ∀ more, StartsToken more → ∃ closed,
      List.Forall₂ Closes ((cut head text).map pieceTag) closed ∧
        (cut head (text ++ (closing ++ more))).map pieceTag =
          closed ++ (cut head more).map pieceTag := by
  rcases List.eq_nil_or_concat (cut head text) with empty | ⟨before, last, pieces⟩
  · have text_eq : text = [] := by rw [← flatMap_text_cut head text, empty, List.flatMap_nil]
    exact ⟨[], fun more _ => ⟨[], by simp [empty], by simp [text_eq]⟩⟩
  · rw [List.concat_eq_append] at pieces
    have mem : last ∈ cut head text := by simp [pieces]
    obtain ⟨c, rest, rfl⟩ := exists_head_of_mem_cut mem
    obtain ⟨closing, closes⟩ := exists_closing_head c rest
    refine ⟨closing, fun more starts => ?_⟩
    obtain ⟨closed, tag, piecesClosed⟩ := closes more starts
    refine ⟨before.map pieceTag ++ [pieceTag closed], ?_, ?_⟩
    · rw [pieces, List.map_append]
      have unchanged : List.Forall₂ Closes (before.map pieceTag) (before.map pieceTag) :=
        List.forall₂_same.2 fun tag _ => .same tag
      exact List.rel_append unchanged (.cons tag .nil)
    · rw [IsLocal.cut_append isLocal_head pieces (List.cons_ne_nil _ _), List.flatMap_cons,
        List.flatMap_nil, List.append_nil, piecesClosed]
      simp

end SearchQuery.Query
