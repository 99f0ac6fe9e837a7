/-!
# Reading in rounds

Text with repeated parts is read round by round: each round takes some text from
the front and either goes on with a new state or is the last one.  A round that
takes nothing can never come to an end, so it counts as a fault.
-/

namespace SearchQuery.Text

universe u

/-- How a round ends: with the state so far and the text that is left. -/
inductive Round (σ : Type u)
  | next (state : σ) (rest : List Char)
  | last (state : σ) (rest : List Char)

variable {σ : Type u}

/-- Plays rounds up to the last one. -/
def rounds (round : σ → List Char → Option (Round σ)) (state : σ) (text : List Char) :
    Option (σ × List Char) :=
  match round state text with
  | some (.next state rest) =>
      if rest.length < text.length then rounds round state rest else none
  | some (.last state rest) => some (state, rest)
  | none => none
termination_by text.length

end SearchQuery.Text
