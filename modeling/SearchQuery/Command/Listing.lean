import SearchQuery.Json.Encoding
import SearchQuery.Settings.Location
import SearchQuery.Text.Style

/-!
# Listings of terms and settings

Terms are listed as a table with a head.  Settings are listed with the path of
their file, and with the fields that can be searched even if they come from no
file.
-/

namespace SearchQuery.Command

open Json (Value)
open Text (Style)

/-- The text filled up with spaces to a width in characters.  Longer text stays as
it is. -/
def column (width : Nat) (text : String) : String :=
  text.pushn ' ' (width - text.length)

namespace TermTable

/-- A row of the table. -/
def row (field comparison span value : String) : String :=
  column 12 field ++ " " ++ column 4 comparison ++ " " ++ column 10 span ++ " " ++ value

/-- The head of the table. -/
def head : String :=
  row "Field" "Op" "Span" "Value"

/-- The row of a term. -/
def termRow (term : Search.Term) : String :=
  row term.subject.name term.comparison.symbol
    (toString term.span.start ++ ".." ++ toString term.span.stop) term.value

/-- The table of these terms. -/
def text (colors : Bool) : List Search.Term → String
  | [] => "No terms.\n"
  | terms =>
      Style.paintIf [.dimmed] colors head ++ "\n" ++
        String.join (terms.map fun term => termRow term ++ "\n")

end TermTable

/-- Where settings come from: the path of the file, whether there is one, and what
is set. -/
structure SettingsReport where
  path : String
  isThere : Bool
  settings : Settings

namespace SettingsReport

/-- The JSON form of what is set. -/
def settingsJson (settings : Settings) : Value :=
  .object ([("version", .ofNat Settings.version),
      ("output", .object (Value.ifGiven "color" .bool settings.color))] ++
    if settings.fields.isEmpty then [] else [("fields", .ofList .ofField settings.fields)])

/-- The JSON form of a report. -/
def json (report : SettingsReport) : Value :=
  Value.sorted (.object [("path", .string report.path), ("exists", .bool report.isThere),
    ("config", settingsJson report.settings),
    ("fields", .ofList .ofField report.settings.searchedFields)])

/-- The name of a truth value. -/
def truthName (value : Bool) : String :=
  if value then "true" else "false"

/-- The line for a field. -/
def fieldLine (field : Field) : String :=
  "  " ++ column 16 field.name ++ " " ++ field.kind.name ++ "\n"

/-- The line for the setting of colours, if there is one. -/
def colorLine (settings : Settings) : String :=
  match settings.color with
  | some color => "  color: " ++ truthName color ++ "\n"
  | none => ""

/-- The report as text. -/
def text (report : SettingsReport) (colors : Bool) : String :=
  Style.paintIf [.bold, .green] colors "Configuration" ++ "\n\n" ++
    "File: " ++ report.path ++ "\n" ++
    "Exists: " ++ truthName report.isThere ++ "\n\n" ++
    "[output]\n" ++ colorLine report.settings ++
    (if report.settings.fields.isEmpty then "\n[fields] (built-in)\n" else "\n[fields]\n") ++
    String.join (report.settings.searchedFields.map fieldLine)

end SettingsReport

end SearchQuery.Command
