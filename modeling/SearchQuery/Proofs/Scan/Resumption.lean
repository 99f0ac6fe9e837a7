import Mathlib.Data.List.DropRight
import Mathlib.Logic.Function.Iterate
import SearchQuery.Proofs.Layout.Reader
import SearchQuery.Proofs.Scan.Faults
import SearchQuery.Proofs.Scan.Longest
import SearchQuery.Query.Scanner

/-!
# Scanning on after a fault

A scanner that goes on after a fault keeps the faulty text in its open token.  Its state is told
by the tolerant scan: after some calls it stands in front of the token of the next call, and it
holds the text of the faulty tokens directly in front of that one (`Scanner.IsBefore`).  One call
keeps this (`Scanner.IsBefore.next`), and so every answer is the one of the tolerant scan with the
faulty text joined to it (`Scanner.run_ofQuery`).

So the calls fail where the tolerant scan has a fault.  But a call right behind a fault never says
what the tolerant scan says there, and every other call does (`Scanner.exists_answers_run`).

Both scans are such calls: the strict one ends with the first fault (`Scanner.scan_eq_untilFault`),
and the tolerant one closes the open token behind each (`Scanner.scanLenient_eq_closingFaults`).
-/

namespace SearchQuery.Query

open Text

/-! ## What the tolerant scan has for a call -/

/-- What the scan says at the place of a token: the error of that place, or the token. -/
def LenientScan.answer (found : LenientScan) (token : Token Tag) : Except Error (Token Tag) :=
  match found.errorAt token.span.start with
  | some error => .error error
  | none => .ok token

/-- The token of the tolerant scan for a call, counted from zero.  Behind the last one there are
only marks of the end. -/
def tokenAt (query : String) (call : Nat) : Token Tag :=
  (scanLenient query).tokens[call]?.getD (endMark query)

/-- The faulty tokens directly in front of the token for a call. -/
def faultsBefore (query : String) (call : Nat) : List (Token Tag) :=
  ((List.range call).map (tokenAt query)).rtakeWhile (·.tag = .error)

/-- The tag of a token that holds faulty text in front of its own: no reserved word is one any
more. -/
def Tag.unreserved : Tag → Tag
  | connective _ => field
  | literal .null => field
  | literal .bool => field
  | tag => tag

/-- An answer that is joined to the faulty tokens in front of it: it is about the place where the
first of them starts, and a token holds the text of all of them. -/
def resumed (faults : List (Token Tag)) (own : Except Error (Token Tag)) :
    Except Error (Token Tag) :=
  match faults with
  | [] => own
  | first :: _ =>
      match own with
      | .error error => .error (error.shifted fun _ => first.span.start)
      | .ok token =>
          .ok ⟨token.tag.unreserved, String.ofList (Token.textOf (faults ++ [token])),
            ⟨first.span.start, token.span.stop⟩⟩

/-! ## Tags behind faulty text -/

/-- A text that does not begin as a word is no reserved word. -/
theorem Tag.ofWord_eq_field {c : Char} (noStart : isWordStart c = false) (rest : List Char) :
    ofWord (String.ofList (c :: rest)) = field := by
  refine ofWord_eq_field_iff.2 fun reserved => ?_
  have starts : ["and", "or", "true", "false", "null"].all (·.toList.head?.any isWordStart) =
      true := rfl
  have start := List.all_eq_true.1 starts _ reserved
  simp [noStart] at start

theorem Tag.unreserved_ofWord (word : String) : (ofWord word).unreserved = field := by
  unfold ofWord
  split <;> rfl

/-- Only words are reserved. -/
theorem unreserved_of_head {c : Char} {rest : List Char} {tag : Tag}
    (found : (head c rest).1 = .ok (.plain tag)) : tag.unreserved = tag := by
  have spells : Spells tag (c :: rest.take (head c rest).2) := isSpelled_head c rest _ found
  generalize text_eq : c :: rest.take (head c rest).2 = text at spells
  cases spells with
  | word starts parts =>
      cases text_eq
      rw [head_of_isWordStart starts] at found
      cases found
  | _ => rfl

/-- With text in front that does not begin as a word, a piece loses what its tag has reserved. -/
theorem tag_append_of_head {c first : Char} {rest : List Char} {shape : Shape}
    (found : (head c rest).1 = .ok shape) (noStart : isWordStart first = false)
    (held text : List Char) :
    shape.tag (first :: held ++ text) = (shape.tag text).unreserved := by
  cases shape with
  | plain tag => exact (unreserved_of_head found).symm
  | word =>
      rw [Shape.tag, Shape.tag, Tag.unreserved_ofWord]
      exact Tag.ofWord_eq_field noStart _

/-- Faulty text does not begin as a word. -/
theorem exists_cons_of_mem_of_tag_eq_error {start : Nat} {text : List Char} {lexeme : Lexeme}
    (mem : lexeme ∈ lexemesFrom start text) (tag : lexeme.token.tag = .error) :
    ∃ c rest, lexeme.token.lexeme.toList = c :: rest ∧ isWordStart c = false := by
  obtain ⟨position, piece, pieceMem, rfl⟩ := exists_piece_of_mem_lexemesFrom mem
  obtain ⟨c, rest, rfl⟩ := exists_head_of_mem_cut pieceMem
  rw [Lexeme.token_ofPiece] at tag ⊢
  refine ⟨c, _, String.toList_ofList, ?_⟩
  by_contra starts
  obtain ⟨fault, found⟩ := (pieceTag_of_mem_cut pieceMem).2.1 tag
  rw [head_of_isWordStart (by simpa using starts)] at found
  cases found

theorem lexemesFrom_cons (start : Nat) (c : Char) (rest : List Char) :
    let text := c :: rest.take (head c rest).2
    lexemesFrom start (c :: rest) =
      .ofPiece start ⟨(head c rest).1, text⟩ ::
        lexemesFrom (start + width text) (rest.drop (head c rest).2) := by
  intro text
  rw [lexemesFrom, cut_cons, locate_cons, List.map_cons]
  rfl

/-- The first piece and the text behind it are as wide as the whole text. -/
theorem width_take_add_width_drop (c : Char) (rest : List Char) (more : Nat) :
    width (c :: rest.take more) + width (rest.drop more) = width (c :: rest) := by
  rw [← width_append, List.cons_append, List.take_append_drop]

/-! ## The lexemes of the calls -/

/-- The lexeme for a call. -/
def lexemeAt (query : String) (call : Nat) : Lexeme :=
  (lexemes query)[call]?.getD ⟨endMark query, none⟩

section Calls

variable {query : String} {call : Nat}

theorem token_lexemeAt (query : String) (call : Nat) :
    (lexemeAt query call).token = tokenAt query call := by
  rw [lexemeAt, tokenAt, scanLenient]
  rcases Nat.lt_or_ge call (lexemes query).length with inside | behind
  · rw [List.getElem?_append_left (by simpa using inside), List.getElem?_map,
      List.getElem?_eq_getElem inside]
    rfl
  · have marks : ([endMark query] : List (Token Tag))[call - (lexemes query).length]?.getD
        (endMark query) = endMark query := by
      cases call - (lexemes query).length <;> rfl
    rw [List.getElem?_append_right (by simpa using behind), List.length_map, marks,
      List.getElem?_eq_none behind]
    rfl

theorem lexemeAt_of_drop_eq_nil (rest : (lexemes query).drop call = []) :
    lexemeAt query call = ⟨endMark query, none⟩ := by
  rw [lexemeAt, List.getElem?_eq_none (List.drop_eq_nil_iff.1 rest), Option.getD_none]

theorem lexemeAt_of_drop_eq_cons {lexeme : Lexeme} {later : List Lexeme}
    (rest : (lexemes query).drop call = lexeme :: later) :
    lexemeAt query call = lexeme ∧ (lexemes query).drop (call + 1) = later := by
  have here : (lexemes query)[call]? = some lexeme := by
    rw [← Nat.add_zero call, ← List.getElem?_drop, rest, List.getElem?_cons_zero]
  constructor
  · rw [lexemeAt, here, Option.getD_some]
  · rw [← List.tail_drop, rest, List.tail_cons]

/-- The token for a call is one of the lexemes, or the mark of the end. -/
theorem lexemeAt_mem_or_eq (query : String) (call : Nat) :
    lexemeAt query call ∈ lexemes query ∨ lexemeAt query call = ⟨endMark query, none⟩ := by
  cases found : (lexemes query)[call]? with
  | none => exact .inr (by rw [lexemeAt, found, Option.getD_none])
  | some lexeme =>
      rw [lexemeAt, found, Option.getD_some]
      exact .inl (List.mem_of_getElem? found)

theorem error_lexemeAt_eq_none_iff :
    (lexemeAt query call).error = none ↔ (tokenAt query call).tag ≠ .error := by
  rw [← token_lexemeAt]
  rcases lexemeAt_mem_or_eq query call with mem | mark
  · exact error_eq_none_iff_of_mem mem
  · rw [mark]
    exact iff_of_true rfl Tag.noConfusion

theorem tokenAt_mem (query : String) (call : Nat) :
    tokenAt query call ∈ (scanLenient query).tokens := by
  rw [← token_lexemeAt]
  rcases lexemeAt_mem_or_eq query call with mem | mark
  · exact List.mem_append_left _ (List.mem_map_of_mem mem)
  · rw [mark]
    exact List.mem_append_right _ (List.mem_singleton.2 rfl)

/-- What the tolerant scan says for a call is what its lexeme says. -/
theorem answer_tokenAt (query : String) (call : Nat) :
    (scanLenient query).answer (tokenAt query call) = (lexemeAt query call).strict := by
  rw [LenientScan.answer, Lexeme.strict, token_lexemeAt]
  cases faulty : (lexemeAt query call).error with
  | none =>
      have proper := error_lexemeAt_eq_none_iff.1 faulty
      cases found : (scanLenient query).errorAt (tokenAt query call).span.start with
      | none => rfl
      | some error =>
          obtain ⟨token, mem, tag, same, -⟩ := errorAt_scanLenient.1 found
          rw [eq_of_start_eq mem (tokenAt_mem query call) same] at tag
          exact absurd tag proper
  | some error =>
      have tag : (tokenAt query call).tag = .error := by
        by_contra proper
        cases faulty.symm.trans (error_lexemeAt_eq_none_iff.2 proper)
      have own : IsErrorOf (tokenAt query call) error := by
        rcases lexemeAt_mem_or_eq query call with mem | mark
        · rw [← token_lexemeAt]
          exact isErrorOf_of_mem mem faulty
        · rw [mark] at faulty
          cases faulty
      rw [errorAt_scanLenient.2 ⟨_, tokenAt_mem query call, tag, rfl, own⟩]

theorem faultsBefore_succ (query : String) (call : Nat) :
    faultsBefore query (call + 1) =
      if (tokenAt query call).tag = .error then faultsBefore query call ++ [tokenAt query call]
      else [] := by
  rw [faultsBefore, List.range_succ, List.map_append, List.map_singleton, List.rtakeWhile_concat]
  simp [faultsBefore]

/-- A token that is no fault clears the faults in front. -/
theorem faultsBefore_succ_of_error_eq_none (valid : (lexemeAt query call).error = none) :
    faultsBefore query (call + 1) = [] := by
  rw [faultsBefore_succ, if_neg (error_lexemeAt_eq_none_iff.1 valid)]

/-- A fault stands directly in front of a call exactly if the call before it has one. -/
theorem faultsBefore_eq_nil_iff :
    faultsBefore query call = [] ↔ call = 0 ∨ (tokenAt query (call - 1)).tag ≠ .error := by
  cases call with
  | zero => simp [faultsBefore]
  | succ call => simp [faultsBefore_succ]

/-- The text of the faults in front of a call does not begin as a word, if there is any. -/
theorem exists_cons_of_faultsBefore {first : Token Tag} {faults : List (Token Tag)}
    (before : faultsBefore query call = first :: faults) :
    ∃ c rest, Token.textOf (first :: faults) = c :: rest ∧ isWordStart c = false := by
  have firstMem : first ∈ faultsBefore query call := by simp [before]
  have tag : first.tag = .error := by
    simpa using List.mem_rtakeWhile_imp firstMem
  obtain ⟨earlier, -, rfl⟩ := List.mem_map.1 ((List.rtakeWhile_suffix _ _).subset firstMem)
  rcases lexemeAt_mem_or_eq query earlier with mem | mark
  · rw [← token_lexemeAt] at tag
    obtain ⟨c, rest, text, noStart⟩ := exists_cons_of_mem_of_tag_eq_error mem tag
    rw [token_lexemeAt] at text
    exact ⟨c, rest ++ Token.textOf faults, by simp [text], noStart⟩
  · rw [← token_lexemeAt, mark] at tag
    cases tag

end Calls

/-! ## The state of a scanner -/

namespace Scanner

/-- The scanner after some calls. -/
def after (scanner : Scanner) (calls : Nat) : Scanner :=
  (fun scanner => scanner.next.2)^[calls] scanner

/-- The answers of a run, one by one. -/
theorem run_eq_map (scanner : Scanner) (calls : Nat) :
    scanner.run calls = (List.range calls).map fun call => (scanner.after call).next.1 := by
  induction calls generalizing scanner with
  | zero => rfl
  | succ calls ih =>
      rw [run, ih, List.range_succ_eq_map, List.map_cons, List.map_map]
      rfl

/-- The scanner stands in front of the token for a call: the text that is left is that of the
lexemes from there on, and its open token holds the faults directly in front of the call. -/
structure IsBefore (query : String) (call : Nat) (scanner : Scanner) : Prop where
  behind : lexemesFrom (scanner.start + width scanner.held) scanner.rest =
    (lexemes query).drop call
  ends : scanner.start + width scanner.held + width scanner.rest = width query.toList
  held : scanner.held = Token.textOf (faultsBefore query call)
  start : ∀ first ∈ (faultsBefore query call).head?, first.span.start = scanner.start

theorem isBefore_ofQuery (query : String) : IsBefore query 0 (ofQuery query) where
  behind := rfl
  ends := by simp [ofQuery]
  held := rfl
  start _ mem := by cases mem

variable {query : String} {call : Nat} {scanner : Scanner}

theorem IsBefore.drop_eq_nil (isBefore : IsBefore query call scanner)
    (atEnd : scanner.rest = []) : (lexemes query).drop call = [] := by
  rw [← isBefore.behind, atEnd]
  simp [lexemesFrom]

/-- The end of a query is the end of the open token. -/
theorem IsBefore.lexemeAt_eq_mark (isBefore : IsBefore query call scanner)
    (atEnd : scanner.rest = []) :
    lexemeAt query call = ⟨.mark .eof (scanner.start + width scanner.held), none⟩ := by
  have ends := isBefore.ends
  rw [atEnd, width_nil, Nat.add_zero] at ends
  rw [lexemeAt_of_drop_eq_nil (isBefore.drop_eq_nil atEnd), endMark, ends]

/-- What is left begins with the lexeme for the call. -/
theorem IsBefore.lexemeAt_eq_ofPiece (isBefore : IsBefore query call scanner) {c : Char}
    {rest : List Char} (left : scanner.rest = c :: rest) :
    let text := c :: rest.take (head c rest).2
    let place := scanner.start + width scanner.held
    lexemeAt query call = .ofPiece place ⟨(head c rest).1, text⟩ ∧
      (lexemes query).drop (call + 1) =
        lexemesFrom (place + width text) (rest.drop (head c rest).2) := by
  apply lexemeAt_of_drop_eq_cons
  rw [← isBefore.behind, left, lexemesFrom_cons]

/-- The token for a call starts behind the text that the scanner holds. -/
theorem IsBefore.span_start (isBefore : IsBefore query call scanner) :
    (tokenAt query call).span.start = scanner.start + width scanner.held := by
  rw [← token_lexemeAt]
  cases left : scanner.rest with
  | nil =>
      rw [isBefore.lexemeAt_eq_mark left]
      rfl
  | cons c rest =>
      rw [(isBefore.lexemeAt_eq_ofPiece left).1, Lexeme.token_ofPiece]
      rfl

/-- The open token starts where the first fault starts that it holds, and with the next token if
it holds none. -/
theorem IsBefore.start_concat (isBefore : IsBefore query call scanner) :
    ∀ first ∈ (faultsBefore query call ++ [tokenAt query call]).head?,
      first.span.start = scanner.start := by
  intro first mem
  cases faults : faultsBefore query call with
  | nil =>
      have held := isBefore.held
      rw [faults, Token.textOf_nil] at held
      rw [faults] at mem
      cases mem
      rw [isBefore.span_start, held, width_nil, Nat.add_zero]
  | cons earlier more =>
      rw [faults] at mem
      cases mem
      exact isBefore.start _ (by simp [faults])

/-! ## One call -/

theorem next_of_ok {c : Char} {rest : List Char} {shape : Shape} (left : scanner.rest = c :: rest)
    (found : (head c rest).1 = .ok shape) :
    scanner.next =
      scanner.close (shape.tag (scanner.held ++ c :: rest.take (head c rest).2))
        (scanner.held ++ c :: rest.take (head c rest).2) (rest.drop (head c rest).2) := by
  simp only [Scanner.next, left, found]

theorem next_of_error {c : Char} {rest : List Char} {fault : Fault}
    (left : scanner.rest = c :: rest) (found : (head c rest).1 = .error fault) :
    scanner.next =
      (.error (fault.at scanner.start),
        ⟨scanner.start, scanner.held ++ c :: rest.take (head c rest).2,
          rest.drop (head c rest).2⟩) := by
  simp only [Scanner.next, left, found]

/-- A token that the scanner closes is the token of the tolerant scan joined to the faults. -/
theorem IsBefore.ofText_eq_resumed (isBefore : IsBefore query call scanner) {tag joined : Tag}
    (text : List Char) (clean : scanner.held = [] → joined = tag)
    (behindFaults : faultsBefore query call ≠ [] → joined = tag.unreserved) :
    Except.ok (Token.ofText joined scanner.start (scanner.held ++ text)) =
      resumed (faultsBefore query call)
        (.ok (.ofText tag (scanner.start + width scanner.held) text)) := by
  have held := isBefore.held
  cases faults : faultsBefore query call with
  | nil =>
      -- nothing is held, so the open token starts with the piece
      rw [faults, Token.textOf_nil] at held
      rw [resumed, clean held, held, width_nil, Nat.add_zero, List.nil_append]
  | cons first more =>
      have start : first.span.start = scanner.start := isBefore.start first (by simp [faults])
      have nonempty : faultsBefore query call ≠ [] := by simp [faults]
      rw [faults] at held
      rw [resumed, behindFaults nonempty, Token.textOf_append, ← held, start]
      simp [Token.ofText, Nat.add_assoc]

/-- A fault is reported at the start of the open token. -/
theorem IsBefore.error_eq_resumed (isBefore : IsBefore query call scanner) (fault : Fault) :
    Except.error (fault.at scanner.start) =
      resumed (faultsBefore query call)
        (.error (fault.at (scanner.start + width scanner.held))) := by
  have held := isBefore.held
  cases faults : faultsBefore query call with
  | nil =>
      rw [faults, Token.textOf_nil] at held
      rw [resumed, held, width_nil, Nat.add_zero]
  | cons first more =>
      have start : first.span.start = scanner.start := isBefore.start first (by simp [faults])
      rw [resumed, start]
      cases fault <;> rfl

/-- Behind faults a piece has no reserved tag. -/
theorem IsBefore.tag_append (isBefore : IsBefore query call scanner) {c : Char}
    {rest : List Char} {shape : Shape} (found : (head c rest).1 = .ok shape)
    (nonempty : faultsBefore query call ≠ []) (text : List Char) :
    shape.tag (scanner.held ++ text) = (shape.tag text).unreserved := by
  obtain ⟨first, faults, before⟩ := List.exists_cons_of_ne_nil nonempty
  obtain ⟨start, held, text_eq, noStart⟩ := exists_cons_of_faultsBefore before
  rw [isBefore.held, before, text_eq]
  exact tag_append_of_head found noStart held text

/-- The answer to a call is that of the tolerant scan, joined to the faults in front. -/
theorem IsBefore.fst_next (isBefore : IsBefore query call scanner) :
    scanner.next.1 = resumed (faultsBefore query call) (lexemeAt query call).strict := by
  cases left : scanner.rest with
  | nil =>
      have joined : Except.ok (Token.ofText .eof scanner.start (scanner.held ++ [])) =
          resumed _ (.ok (.mark .eof (scanner.start + width scanner.held))) :=
        isBefore.ofText_eq_resumed [] (fun _ => rfl) fun _ => rfl
      rw [List.append_nil] at joined
      rw [next_of_nil left, isBefore.lexemeAt_eq_mark left]
      exact joined
  | cons c rest =>
      rw [(isBefore.lexemeAt_eq_ofPiece left).1]
      cases found : (head c rest).1 with
      | ok shape =>
          rw [next_of_ok left found]
          apply isBefore.ofText_eq_resumed
          · intro clean
            rw [clean, List.nil_append]
          · intro nonempty
            exact isBefore.tag_append found nonempty _
      | error fault =>
          rw [next_of_error left found]
          exact isBefore.error_eq_resumed fault

/-- A scanner that has taken the next piece stands in front of the next token. -/
theorem IsBefore.succ (isBefore : IsBefore query call scanner) {c : Char} {rest : List Char}
    {later : Scanner} (left : scanner.rest = c :: rest)
    (rest_eq : later.rest = rest.drop (head c rest).2)
    (place : later.start + width later.held =
      scanner.start + width scanner.held + width (c :: rest.take (head c rest).2))
    (held : later.held = Token.textOf (faultsBefore query (call + 1)))
    (start : ∀ first ∈ (faultsBefore query (call + 1)).head?, first.span.start = later.start) :
    IsBefore query (call + 1) later where
  behind := by rw [place, rest_eq, (isBefore.lexemeAt_eq_ofPiece left).2]
  ends := by
    rw [place, rest_eq, Nat.add_assoc, width_take_add_width_drop, ← left, isBefore.ends]
  held := held
  start := start

/-- One call leads from a token to the next one. -/
theorem IsBefore.next (isBefore : IsBefore query call scanner) :
    IsBefore query (call + 1) scanner.next.2 := by
  cases left : scanner.rest with
  | nil =>
      have nothing : faultsBefore query (call + 1) = [] :=
        faultsBefore_succ_of_error_eq_none (by rw [isBefore.lexemeAt_eq_mark left])
      have ends := isBefore.ends
      rw [next_of_nil left]
      constructor
      · rw [← List.tail_drop, isBefore.drop_eq_nil left]
        simp [close, lexemesFrom]
      · simpa [close, left] using ends
      · simp [close, nothing]
      · simp [nothing]
  | cons c rest =>
      have here := (isBefore.lexemeAt_eq_ofPiece left).1
      cases found : (head c rest).1 with
      | ok shape =>
          have nothing : faultsBefore query (call + 1) = [] :=
            faultsBefore_succ_of_error_eq_none (by rw [here, found, Lexeme.ofPiece])
          rw [next_of_ok left found]
          apply isBefore.succ left rfl
          · simp [close, Nat.add_assoc]
          · simp [close, nothing]
          · simp [nothing]
      | error fault =>
          -- the open token is not closed: the fault joins those that it holds already
          have token : tokenAt query call = .ofText .error (scanner.start + width scanner.held)
              (c :: rest.take (head c rest).2) := by
            rw [← token_lexemeAt, here, found, Lexeme.ofPiece]
          have faults : faultsBefore query (call + 1) =
              faultsBefore query call ++ [tokenAt query call] := by
            rw [faultsBefore_succ, if_pos (by rw [token, Token.ofText])]
          rw [next_of_error left found]
          apply isBefore.succ left rfl
          · simp [Nat.add_assoc]
          · rw [faults, Token.textOf_append, ← isBefore.held, token]
            simp [Token.ofText]
          · rw [faults]
            exact isBefore.start_concat

theorem isBefore_after (query : String) (calls : Nat) :
    IsBefore query calls ((ofQuery query).after calls) := by
  induction calls with
  | zero => exact isBefore_ofQuery query
  | succ calls ih =>
      rw [after, Function.iterate_succ_apply']
      exact ih.next

/-- The answers of a scanner are those of the tolerant scan, each joined to the faults directly in
front of it. -/
theorem run_ofQuery (query : String) (calls : Nat) :
    (ofQuery query).run calls = (List.range calls).map fun call =>
      resumed (faultsBefore query call) ((scanLenient query).answer (tokenAt query call)) := by
  rw [run_eq_map]
  apply List.map_congr_left
  intro call _
  rw [(isBefore_after query call).fst_next, answer_tokenAt]

/-! ## The two scans call by call -/

section Scans

variable {start : Nat} {c : Char} {rest : List Char}

/-- A call with nothing held takes the first piece as its token. -/
theorem next_mk_of_ok {shape : Shape} (found : (head c rest).1 = .ok shape) :
    let text := c :: rest.take (head c rest).2
    next ⟨start, [], c :: rest⟩ = (.ok (.ofText (shape.tag text) start text),
      ⟨start + width text, [], rest.drop (head c rest).2⟩) :=
  next_of_ok rfl found

/-- A call with nothing held that fails holds the first piece. -/
theorem next_mk_of_error {fault : Fault} (found : (head c rest).1 = .error fault) :
    next ⟨start, [], c :: rest⟩ = (.error (fault.at start),
      ⟨start, c :: rest.take (head c rest).2, rest.drop (head c rest).2⟩) :=
  next_of_error rfl found

theorem next_mk_nil (start : Nat) :
    next ⟨start, [], []⟩ = (.ok (.mark .eof start), ⟨start, [], []⟩) :=
  rfl

/-- Calls up to the first fault give the tokens that are left with the mark of the end behind
them, or the first fault among them. -/
theorem untilFault_mk (start : Nat) (text : List Char) :
    untilFault ⟨start, [], text⟩ = ((lexemesFrom start text).mapM Lexeme.strict).map
      (· ++ [.mark .eof (start + width text)]) := by
  induction text using cut.induct head generalizing start with
  | case1 =>
      have atEnd : (Token.mark Tag.eof start).tag = .eof := rfl
      rw [untilFault_of_ok (next_mk_nil start), if_pos atEnd, lexemesFrom, cut_nil]
      rfl
  | case2 c rest ih =>
      rw [lexemesFrom_cons, List.mapM_cons]
      cases found : (head c rest).1 with
      | error fault =>
          rw [untilFault_of_error (next_mk_of_error found)]
          rfl
      | ok shape =>
          have notEnd := (isProper_head c rest shape found (c :: rest.take (head c rest).2)).1
          rw [untilFault_of_ok (next_mk_of_ok found), Token.ofText, if_neg notEnd, ih,
            Nat.add_assoc, width_take_add_width_drop]
          cases (lexemesFrom (start + width (c :: rest.take (head c rest).2))
            (rest.drop (head c rest).2)).mapM Lexeme.strict <;> rfl

/-- Calls that go on behind each fault give all lexemes that are left. -/
theorem closingFaults_mk (start : Nat) (text : List Char) :
    closingFaults ⟨start, [], text⟩ =
      ⟨(lexemesFrom start text).map Lexeme.token ++ [.mark .eof (start + width text)],
        (lexemesFrom start text).filterMap Lexeme.error⟩ := by
  induction text using cut.induct head generalizing start with
  | case1 =>
      have atEnd : (Token.mark Tag.eof start).tag = .eof := rfl
      rw [closingFaults_of_ok (next_mk_nil start), if_pos atEnd, lexemesFrom, cut_nil]
      rfl
  | case2 c rest ih =>
      rw [lexemesFrom_cons]
      cases found : (head c rest).1 with
      | error fault =>
          rw [closingFaults_of_error (next_mk_of_error found), ih, Nat.add_assoc,
            width_take_add_width_drop]
          rfl
      | ok shape =>
          have notEnd := (isProper_head c rest shape found (c :: rest.take (head c rest).2)).1
          rw [closingFaults_of_ok (next_mk_of_ok found), Token.ofText, if_neg notEnd, ih,
            Nat.add_assoc, width_take_add_width_drop]
          rfl

/-- The strict scan is the run of a scanner up to its first fault. -/
theorem scan_eq_untilFault (query : String) : scan query = (ofQuery query).untilFault := by
  rw [ofQuery, untilFault_mk, Nat.zero_add]
  rfl

/-- The tolerant scan is the run of a scanner that closes each fault as a token of its own. -/
theorem scanLenient_eq_closingFaults (query : String) :
    scanLenient query = (ofQuery query).closingFaults := by
  rw [ofQuery, closingFaults_mk, Nat.zero_add]
  rfl

end Scans

/-! ## Where a scanner is in step with the tolerant scan -/

theorem exists_error_resumed_iff {faults : List (Token Tag)} {own : Except Error (Token Tag)} :
    (∃ error, resumed faults own = .error error) ↔ ∃ error, own = .error error := by
  cases faults with
  | nil => exact Iff.rfl
  | cons first more => cases own <;> simp [resumed]

theorem exists_error_answer_iff :
    (∃ error, (scanLenient query).answer (tokenAt query call) = .error error) ↔
      (tokenAt query call).tag = .error := by
  rw [answer_tokenAt, Lexeme.strict, ← not_iff_not, ← ne_eq, ← error_lexemeAt_eq_none_iff]
  cases (lexemeAt query call).error <;> simp

/-- The place that an answer is about. -/
def startOf : Except Error (Token Tag) → Option Nat
  | .error error => error.position?
  | .ok token => some token.span.start

theorem startOf_resumed_cons (first : Token Tag) (more : List (Token Tag))
    (own : Except Error (Token Tag)) :
    startOf (resumed (first :: more) own) = (startOf own).map fun _ => first.span.start := by
  cases own with
  | error error => exact error.position?_shifted
  | ok token => rfl

/-- What the tolerant scan says for a call is about the place of its token. -/
theorem startOf_answer (query : String) (call : Nat) :
    startOf ((scanLenient query).answer (tokenAt query call)) =
      some (tokenAt query call).span.start := by
  rw [answer_tokenAt, Lexeme.strict, token_lexemeAt]
  cases faulty : (lexemeAt query call).error with
  | none => rfl
  | some error =>
      rcases lexemeAt_mem_or_eq query call with mem | mark
      · rw [← token_lexemeAt]
        exact position?_of_error_eq_some mem faulty
      · rw [mark] at faulty
        cases faulty

/-- Faulty text in front moves the answer to another place. -/
theorem IsBefore.resumed_eq_iff (isBefore : IsBefore query call scanner) :
    resumed (faultsBefore query call) ((scanLenient query).answer (tokenAt query call)) =
      (scanLenient query).answer (tokenAt query call) ↔ faultsBefore query call = [] := by
  constructor
  · intro same
    by_contra nonempty
    obtain ⟨first, more, before⟩ := List.exists_cons_of_ne_nil nonempty
    obtain ⟨c, tail, text, -⟩ := exists_cons_of_faultsBefore before
    have start : first.span.start = scanner.start := isBefore.start first (by simp [before])
    have held : 0 < width scanner.held := by
      rw [isBefore.held, before, text]
      exact width_pos (List.cons_ne_nil c tail)
    have places := congrArg startOf same
    rw [before, startOf_resumed_cons, startOf_answer, Option.map_some, Option.some.injEq,
      isBefore.span_start, start] at places
    omega
  · intro nothing
    rw [nothing, resumed]

/-- Behind the last lexeme there are only marks of the end. -/
theorem tokenAt_of_le (behind : (lexemes query).length ≤ call) :
    tokenAt query call = endMark query := by
  rw [← token_lexemeAt, lexemeAt_of_drop_eq_nil (List.drop_eq_nil_of_le behind)]

/-- No fault is found at the end. -/
theorem answer_of_le (behind : (lexemes query).length ≤ call) :
    (scanLenient query).answer (tokenAt query call) = .ok (endMark query) := by
  rw [answer_tokenAt, lexemeAt_of_drop_eq_nil (List.drop_eq_nil_of_le behind)]
  rfl

/-- How the answer to a call stands to the tolerant scan. -/
structure Resumes (query : String) (call : Nat) (answer : Except Error (Token Tag)) : Prop where
  /-- The call fails exactly if the tolerant scan has a fault there. -/
  fails : (∃ error, answer = .error error) ↔ (tokenAt query call).tag = .error
  /-- It says what the tolerant scan says exactly if there is no fault directly in front. -/
  agrees : answer = (scanLenient query).answer (tokenAt query call) ↔
    call = 0 ∨ (tokenAt query (call - 1)).tag ≠ .error
  /-- Faults directly in front are joined to it. -/
  joined : answer =
    resumed (faultsBefore query call) ((scanLenient query).answer (tokenAt query call))

theorem resumes_resumed (query : String) (call : Nat) :
    Resumes query call (resumed (faultsBefore query call)
      ((scanLenient query).answer (tokenAt query call))) where
  fails := exists_error_resumed_iff.trans exists_error_answer_iff
  agrees := (isBefore_after query call).resumed_eq_iff.trans faultsBefore_eq_nil_iff
  joined := rfl

/-- However often a scanner is called, its answers fail where the tolerant scan has a fault, and
they say what the tolerant scan says there exactly if the call in front had no fault.  Behind all
tokens there are only empty marks of the end. -/
theorem exists_answers_run (query : String) :
    ∃ answers : Nat → Except Error (Token Tag),
      (∀ calls, (ofQuery query).run calls = (List.range calls).map answers) ∧
      (∀ call, Resumes query call (answers call)) ∧
      ∀ more, answers ((scanLenient query).tokens.length + more) =
        .ok ⟨.eof, "", ⟨query.utf8ByteSize, query.utf8ByteSize⟩⟩ := by
  refine ⟨_, run_ofQuery query, resumes_resumed query, fun more => ?_⟩
  have length : (scanLenient query).tokens.length = (lexemes query).length + 1 := by
    simp [scanLenient]
  have notFaulty : (tokenAt query ((scanLenient query).tokens.length + more - 1)).tag ≠ .error := by
    rw [tokenAt_of_le (by omega)]
    exact Tag.noConfusion
  have agrees := (resumes_resumed query _).agrees.2 (.inr notFaulty)
  rw [agrees, answer_of_le (by omega), endMark, width_toList]
  rfl

/-- Two faults and a reserved word: the second fault is reported at the place of the first one,
and the word is part of a field that begins with the faulty text. -/
theorem not_run_eq_answers :
    (ofQuery "@#and").run 4 =
        [.error (.unknownEntity '@' 0), .error (.unknownEntity '#' 0),
          .ok ⟨.field, "@#and", ⟨0, 5⟩⟩, .ok ⟨.eof, "", ⟨5, 5⟩⟩] ∧
      (List.range 4).map (fun call => (scanLenient "@#and").answer (tokenAt "@#and" call)) =
        [.error (.unknownEntity '@' 0), .error (.unknownEntity '#' 1),
          .ok ⟨.connective .and, "and", ⟨2, 5⟩⟩, .ok ⟨.eof, "", ⟨5, 5⟩⟩] ∧
      ¬ ∀ query calls, (ofQuery query).run calls =
        (List.range calls).map fun call => (scanLenient query).answer (tokenAt query call) := by
  have answers : (ofQuery "@#and").run 4 =
      [.error (.unknownEntity '@' 0), .error (.unknownEntity '#' 0),
        .ok ⟨.field, "@#and", ⟨0, 5⟩⟩, .ok ⟨.eof, "", ⟨5, 5⟩⟩] := by decide +kernel
  have tolerant : (List.range 4).map
      (fun call => (scanLenient "@#and").answer (tokenAt "@#and" call)) =
        [.error (.unknownEntity '@' 0), .error (.unknownEntity '#' 1),
          .ok ⟨.connective .and, "and", ⟨2, 5⟩⟩, .ok ⟨.eof, "", ⟨5, 5⟩⟩] := by decide +kernel
  refine ⟨answers, tolerant, fun agree => ?_⟩
  have same := agree "@#and" 4
  rw [answers, tolerant] at same
  simp at same

end Scanner

end SearchQuery.Query
