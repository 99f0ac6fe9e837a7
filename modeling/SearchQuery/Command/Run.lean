import SearchQuery.Command.Check
import SearchQuery.Command.Listing
import SearchQuery.Query.Reader
import SearchQuery.Search.Filter

/-!
# Running commands

A command runs on its task, its options and the surroundings of the program.
Commands that look up fields need the settings and fail without them.  All others
use them only to decide on colours, and settings that cannot be had do not
disturb these commands.
-/

namespace SearchQuery.Command

open Json (Value)
open Query (Comparison Filter)
open Search (Term)
open Settings (Environment)

/-- The version of the program. -/
def programVersion : String :=
  "0.1.3"

/-- Whether styles are used: if neither an option nor a variable nor the settings
forbid them. -/
def usesColors (environment : Environment) (options : Options) (settings : Settings) : Bool :=
  !options.noColor && (environment.valueOf? "NO_COLOR").isNone && settings.allowsColor

/-- What is said without a command. -/
def overviewText : String :=
  "rsq - rsk search query tool\nUse --help for usage information\n"

/-- Reads a query and writes it in its canonical form. -/
def parse (options : Options) (query : String) : Outcome :=
  .ofResult .filter (fun filter =>
    .ofAnswer options
      (.object [("query", .string filter.render), ("filter", .ofFilter filter)])
      (filter.render ++ "\n"))
    (Filter.read query)

/-- Lists the terms of a search text, or writes the query for them. -/
def listTerms (options : Options) (colors asQuery : Bool) (text : String) : Outcome :=
  .ofResult .terms (fun terms =>
    if asQuery then
      .ofAnswer options (.object [("query", .string (Term.queryAll terms))])
        (Term.queryAll terms ++ "\n")
    else .ofAnswer options (.ofList .ofTerm terms) (TermTable.text colors terms))
    (Term.readAll text)

/-- Writes the search text for a query. -/
def plainText (options : Options) (query : String) : Outcome :=
  .ofResult .filter (fun filter =>
    let terms := Term.ofFilter filter
    let text := Term.plainTextAll terms
    .ofAnswer options
      (Value.sorted (.object [("text", .string text), ("terms", .ofList .ofTerm terms),
        ("skipped", .ofNat (Term.skipped filter))]))
      (text ++ "\n"))
    (Filter.read query)

/-- Composes a condition on a field. -/
def composeCondition (options : Options) (settings : Settings) (field : String)
    (comparison : Comparison) (raw : String) : Outcome :=
  .ofResult .filter (fun filter =>
    .ofAnswer options
      (Value.sorted (.object [("query", .string filter.render), ("filter", .ofFilter filter)]))
      (filter.render ++ "\n"))
    (settings.catalogue.compose field comparison raw)

/-- The kind for which comparisons are listed. -/
def listedKind (settings : Settings) : Listed → Except Query.Error Field.Kind
  | .kind kind => .ok kind
  | .field name => (settings.catalogue.lookup name).map Field.kind

/-- Lists the comparisons that a kind supports. -/
def listOperators (options : Options) (settings : Settings) (listed : Listed) : Outcome :=
  .ofResult .filter (fun kind =>
    let symbols := kind.comparisons.map Comparison.symbol
    .ofAnswer options
      (.object [("kind", .string kind.name), ("operators", .ofList .string symbols)])
      (String.intercalate " " symbols ++ "\n"))
    (listedKind settings listed)

/-- Shows the settings and where they come from. -/
def showSettings (options : Options) (environment : Environment) (colors : Bool) : Outcome :=
  .ofResult .settings (fun (path, settings) =>
    let report : SettingsReport := ⟨path, environment.holds path, settings⟩
    .ofAnswer options report.json (report.text colors))
    (do return (← environment.settingsPath, ← environment.settings))

/-- Gives the path of the settings file, however quiet the program is to be. -/
def showSettingsPath (options : Options) (environment : Environment) : Outcome :=
  .ofResult .settings (fun path =>
    .ofAnswer { options with quiet := false }
      (.object [("exists", .bool (environment.holds path)), ("path", .string path)])
      (path ++ "\n"))
    environment.settingsPath

/-- The settings, or settings in which nothing is set if they cannot be had. -/
def settingsOrUnset (environment : Environment) : Settings :=
  match environment.settings with
  | .ok settings => settings
  | .error _ => .unset

namespace Task

/-- Runs a task. -/
def run (environment : Environment) (options : Options) (task : Task) : Outcome :=
  let colors := usesColors environment options (settingsOrUnset environment)
  match task with
  | overview => .ofOutput (if options.quiet then "" else overviewText)
  | parse query => Command.parse options query
  | check query => (Findings.ofQuery query).outcome options colors
  | terms text asQuery => listTerms options colors asQuery text
  | plainText query => Command.plainText options query
  | compose field comparison raw =>
      .ofResult .settings (fun settings => composeCondition options settings field comparison raw)
        environment.settings
  | operators listed =>
      .ofResult .settings (fun settings => listOperators options settings listed)
        environment.settings
  | showSettings => Command.showSettings options environment colors
  | settingsPath => showSettingsPath options environment

end Task

/-- The report on a fault in the command line. -/
def usageReport : Report :=
  ⟨2, "", "Error: the arguments are not understood\n"⟩

/-- Runs the program on its arguments. -/
def report (environment : Environment) (arguments : List String) : Report :=
  match Invocation.read? arguments with
  | none => usageReport
  | some (.version verb) => ⟨0, verb.title ++ " " ++ programVersion ++ "\n", ""⟩
  | some (.run options task) => (task.run environment options).report options.json

end SearchQuery.Command
