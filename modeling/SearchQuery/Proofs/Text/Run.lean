/-!
# Runs over the tokens of a text

A reader takes the tokens of a text one after the other.  A run over two parts goes through a
state between them (`foldlM_append_eq_ok_iff`), and a run fails exactly when some token is
refused in the state that the tokens in front of it lead to (`foldlM_eq_error_iff`).  The
tokens behind a refused one are never looked at.
-/

namespace SearchQuery.Text

variable {σ τ ε : Type} {step : σ → τ → Except ε σ} {state after : σ}

theorem foldlM_cons_eq_ok_iff {token : τ} {tokens : List τ} :
    (token :: tokens).foldlM step state = .ok after ↔
      ∃ middle, step state token = .ok middle ∧ tokens.foldlM step middle = .ok after := by
  simp only [List.foldlM_cons, bind, Except.bind]
  cases step state token <;> simp

theorem foldlM_append_eq_ok_iff {first second : List τ} :
    (first ++ second).foldlM step state = .ok after ↔
      ∃ middle, first.foldlM step state = .ok middle ∧
        second.foldlM step middle = .ok after := by
  simp only [List.foldlM_append, bind, Except.bind]
  cases first.foldlM step state <;> simp

theorem foldlM_eq_error_iff {tokens : List τ} {error : ε} :
    tokens.foldlM step state = .error error ↔
      ∃ before token behind middle, tokens = before ++ token :: behind ∧
        before.foldlM step state = .ok middle ∧ step middle token = .error error := by
  constructor
  · intro failed
    induction tokens generalizing state with
    | nil => cases failed
    | cons token tokens ih =>
        rw [List.foldlM_cons] at failed
        cases taken : step state token with
        | error refusal =>
            rw [taken] at failed
            cases failed
            exact ⟨[], token, tokens, state, rfl, rfl, taken⟩
        | ok next =>
            rw [taken] at failed
            rcases ih failed with ⟨before, refused, behind, middle, rfl, run, refusal⟩
            exact ⟨token :: before, refused, behind, middle, rfl,
              foldlM_cons_eq_ok_iff.2 ⟨next, taken, run⟩, refusal⟩
  · rintro ⟨before, token, behind, middle, rfl, run, refusal⟩
    rw [List.foldlM_append, run]
    simp only [bind, Except.bind, List.foldlM_cons, refusal]

end SearchQuery.Text
