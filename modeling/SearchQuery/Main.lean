import SearchQuery.Command.Run

/-!
# The program

Reads the variables, the home directory of the user and the settings file, runs
the command line on them, and writes the report.
-/

namespace SearchQuery

open Settings (Content Environment)

/-- The variables that the program looks at. -/
def variableNames : List String :=
  ["RSQ_CONFIG", "XDG_CONFIG_HOME", "HOME", "NO_COLOR"]

/-- What a failure to read a path says about it.  A path that leads nowhere, also
because of a file on the way or a name that is too long, is as good as absent. -/
def contentOfFailure : IO.Error → Content
  | .noFileOrDirectory _ _ _ => .absent
  | .invalidArgument _ _ _ => .absent
  | .inappropriateType _ code _ =>
      if code = 21 then .unreadable "Is a directory (os error 21)" else .absent
  | .permissionDenied _ _ _ => .unreadable "Permission denied (os error 13)"
  | .userError _ => .unreadable "stream did not contain valid UTF-8"
  | error => .unreadable error.toString

/-- Reads what is under a path. -/
def readContent (path : String) : IO Content := do
  try
    return .text (← IO.FS.readFile path)
  catch error =>
    return contentOfFailure error

/-- Reads the home directory recorded for the account of the user, on a system that
tells the number of the user in the state of the program. -/
def readAccountHome : IO (Option String) := do
  match ← readContent "/proc/self/status", ← readContent "/etc/passwd" with
  | .text state, .text accounts =>
      let user? := (state.splitOn "\n").findSome? fun line =>
        match line.splitOn "\t" with
        | "Uid:" :: user :: _ => some user
        | _ => none
      return user?.bind (Settings.homeOfUser? accounts)
  | _, _ => return none

/-- Reads the surroundings of the program: the variables, the home directory of the
user, and the settings file. -/
def readEnvironment : IO Environment := do
  let found ← variableNames.filterMapM fun name => do
    return (← IO.getEnv name).map fun value => (name, value)
  let bare : Environment :=
    ⟨fun name => List.lookup name found, fun _ => .absent, ← readAccountHome⟩
  match bare.settingsPath with
  | .ok path =>
      let content ← readContent path
      return { bare with content := fun name => if name = path then content else .absent }
  | .error _ => return bare

end SearchQuery

def main (arguments : List String) : IO UInt32 := do
  let report := SearchQuery.Command.report (← SearchQuery.readEnvironment) arguments
  IO.print report.output
  IO.eprint report.errors
  return report.exit.toUInt32
