import SearchQuery.Command.Invocation
import SearchQuery.Json.Text
import SearchQuery.Query.TreeReader
import SearchQuery.Search.Reader
import SearchQuery.Settings.Basic

/-!
# Reports

A command leaves an outcome: what it has to say, notes beside it, and possibly a
failure.  The report of an outcome is what the program writes and the number with
which it ends.  A failure is reported as a line or, where JSON is asked for, as an
object.
-/

namespace SearchQuery.Command

open Json (Value)

/-- Why a command failed. -/
inductive Failure
  | filter (error : Query.Error)
  | tree (error : Query.TreeError)
  | terms (error : Search.Error)
  | settings (error : Settings.Error)

namespace Failure

/-- The code of a failure in a JSON report. -/
def code : Failure → String
  | filter _ => "FILTER_ERROR"
  | tree _ => "SYNTAX_ERROR"
  | terms _ => "TERMS_ERROR"
  | settings _ => "CONFIG_ERROR"

/-- The wording of a failure. -/
def message : Failure → String
  | filter error => "filter error: " ++ error.message
  | tree error => "syntax error: " ++ error.message
  | terms error => "search text error: " ++ error.message
  | settings error => "configuration error: " ++ error.message

/-- The number with which the program ends. -/
def exit : Failure → Nat
  | settings _ => 5
  | _ => 1

/-- The JSON form of a failure. -/
def json (failure : Failure) : Value :=
  .object [("error",
    .object [("code", .string failure.code), ("message", .string failure.message)])]

/-- The text of a failure. -/
def text (failure : Failure) (asJson : Bool) : String :=
  if asJson then failure.json.text ++ "\n" else "Error: " ++ failure.message ++ "\n"

end Failure

/-- What a command leaves. -/
structure Outcome where
  output : String
  notes : String
  failure : Option Failure

namespace Outcome

/-- An outcome with output alone. -/
def ofOutput (output : String) : Outcome :=
  ⟨output, "", none⟩

/-- An outcome with a failure alone. -/
def ofFailure (failure : Failure) : Outcome :=
  ⟨"", "", some failure⟩

/-- An outcome that is given as JSON or as text; text is left out on request. -/
def ofAnswer (options : Options) (json : Value) (text : String) : Outcome :=
  if options.json then ofOutput (json.text ++ "\n")
  else if options.quiet then ofOutput ""
  else ofOutput text

/-- The outcome of a result that may be a failure. -/
def ofResult {ε α : Type} (failure : ε → Failure) (outcome : α → Outcome) :
    Except ε α → Outcome
  | .ok value => outcome value
  | .error error => ofFailure (failure error)

end Outcome

/-- What the program writes to its output and beside it, and the number with which
it ends. -/
structure Report where
  exit : Nat
  output : String
  errors : String
  deriving DecidableEq

/-- The report of an outcome. -/
def Outcome.report (outcome : Outcome) (asJson : Bool) : Report :=
  match outcome.failure with
  | none => ⟨0, outcome.output, outcome.notes⟩
  | some failure => ⟨failure.exit, outcome.output, outcome.notes ++ failure.text asJson⟩

end SearchQuery.Command
