import SearchQuery.Query.Lexeme

/-!
# Scanning call by call

A scanner hands out one token at a time and can be asked to go on after a
fault.  A call that fails has taken the faulty text, but the token that it
began is still open: the next token starts where that one started, and its
lexeme begins with the faulty text.  Only then is the start moved on.

Calls are made up to the mark of the end.  They either stop at the first fault
(`Scanner.untilFault`) or close the open token behind each one
(`Scanner.closingFaults`).
-/

namespace SearchQuery.Query

open Text

/-- A scanner in the middle of a query: where the open token starts, the faulty
text that it already holds, and the text that is left. -/
structure Scanner where
  start : Nat
  held : List Char
  rest : List Char

namespace Scanner

/-- A scanner at the start of a query. -/
def ofQuery (query : String) : Scanner :=
  ⟨0, [], query.toList⟩

/-- Ends the open token, which holds `text`, before `rest`. -/
def close (scanner : Scanner) (tag : Tag) (text rest : List Char) :
    Except Error (Token Tag) × Scanner :=
  (.ok (.ofText tag scanner.start text), ⟨scanner.start + width text, [], rest⟩)

/-- The answer to one call, and the scanner after it. -/
def next (scanner : Scanner) : Except Error (Token Tag) × Scanner :=
  match scanner.rest with
  | [] => scanner.close .eof scanner.held []
  | c :: rest =>
      let (kind, more) := head c rest
      let text := scanner.held ++ c :: rest.take more
      match kind with
      | .ok shape => scanner.close (shape.tag text) text (rest.drop more)
      | .error fault =>
          (.error (fault.at scanner.start), ⟨scanner.start, text, rest.drop more⟩)

/-- The answers to the first `calls` calls. -/
def run (scanner : Scanner) : (calls : Nat) → List (Except Error (Token Tag))
  | 0 => []
  | calls + 1 => scanner.next.1 :: scanner.next.2.run calls

variable {scanner later : Scanner} {token : Token Tag} {error : Error}

theorem next_of_nil (atEnd : scanner.rest = []) :
    scanner.next = scanner.close .eof scanner.held [] := by
  simp only [next, atEnd]

/-- A call takes some text, as long as there is any. -/
theorem length_rest_next_lt (left : scanner.rest ≠ []) :
    scanner.next.2.rest.length < scanner.rest.length := by
  obtain ⟨c, rest, text⟩ := List.exists_cons_of_ne_nil left
  cases found : (head c rest).1 <;>
    simp only [next, text, found, close, List.length_drop, List.length_cons] <;>
    omega

theorem length_rest_lt_of_ok (answer : scanner.next = (.ok token, later))
    (notEnd : token.tag ≠ .eof) : later.rest.length < scanner.rest.length := by
  have left : scanner.rest ≠ [] := by
    intro atEnd
    rw [next_of_nil atEnd] at answer
    cases answer
    exact notEnd rfl
  simpa [answer] using length_rest_next_lt left

theorem length_rest_lt_of_error (answer : scanner.next = (.error error, later)) :
    later.rest.length < scanner.rest.length := by
  have left : scanner.rest ≠ [] := by
    intro atEnd
    rw [next_of_nil atEnd] at answer
    cases answer
  simpa [answer] using length_rest_next_lt left

/-- Calls up to the mark of the end, or up to the first fault. -/
def untilFault (scanner : Scanner) : Except Error (List (Token Tag)) :=
  match answer : scanner.next with
  | (.error error, _) => .error error
  | (.ok token, later) =>
      if atEnd : token.tag = .eof then .ok [token]
      else
        have := length_rest_lt_of_ok answer atEnd
        later.untilFault.map (token :: ·)
termination_by scanner.rest.length

/-- Calls up to the mark of the end.  Behind each fault the open token is closed as a faulty
one. -/
def closingFaults (scanner : Scanner) : LenientScan :=
  match answer : scanner.next with
  | (.error error, later) =>
      have := length_rest_lt_of_error answer
      let found := closingFaults ⟨later.start + width later.held, [], later.rest⟩
      ⟨.ofText .error later.start later.held :: found.tokens, error :: found.errors⟩
  | (.ok token, later) =>
      if atEnd : token.tag = .eof then ⟨[token], []⟩
      else
        have := length_rest_lt_of_ok answer atEnd
        let found := later.closingFaults
        ⟨token :: found.tokens, found.errors⟩
termination_by scanner.rest.length

theorem untilFault_of_error (answer : scanner.next = (.error error, later)) :
    scanner.untilFault = .error error := by
  rw [untilFault]
  split
  · next found => cases answer.symm.trans found; rfl
  · next found => cases answer.symm.trans found

theorem untilFault_of_ok (answer : scanner.next = (.ok token, later)) :
    scanner.untilFault =
      if token.tag = .eof then .ok [token] else later.untilFault.map (token :: ·) := by
  rw [untilFault]
  split
  · next found => cases answer.symm.trans found
  · next found => cases answer.symm.trans found; rfl

theorem closingFaults_of_error (answer : scanner.next = (.error error, later)) :
    scanner.closingFaults =
      let found := closingFaults ⟨later.start + width later.held, [], later.rest⟩
      ⟨.ofText .error later.start later.held :: found.tokens, error :: found.errors⟩ := by
  rw [closingFaults]
  split
  · next found => cases answer.symm.trans found; rfl
  · next found => cases answer.symm.trans found

theorem closingFaults_of_ok (answer : scanner.next = (.ok token, later)) :
    scanner.closingFaults =
      if token.tag = .eof then ⟨[token], []⟩
      else ⟨token :: later.closingFaults.tokens, later.closingFaults.errors⟩ := by
  rw [closingFaults]
  split
  · next found => cases answer.symm.trans found
  · next found => cases answer.symm.trans found; rfl

end Scanner

end SearchQuery.Query
