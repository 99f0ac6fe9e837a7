import SearchQuery.Settings.Stored

/-!
# Where settings are kept

The settings file is named by a variable of its own, or it has a fixed name in
the directory for configuration, or in the one below the home directory.  A
variable that is set but empty counts for the first two.  For the third it does
not: the home directory is then the one recorded for the account of the user.
A file that does not exist stands for settings in which nothing is set.
-/

namespace SearchQuery.Settings

/-- What is found under the path of a file. -/
inductive Content
  | absent
  | unreadable (reason : String)
  | text (text : String)
  deriving DecidableEq

/-- What the program knows of its surroundings: variables, files, and the home
directory recorded for the account of the user. -/
structure Environment where
  valueOf? : String → Option String
  content : String → Content
  accountHome? : Option String

/-- The home directory of a user in a table of accounts.  A line of the table has
seven parts with colons between them: the third is the number of the user, the
sixth the home directory. -/
def homeOfUser? (accounts user : String) : Option String :=
  (accounts.splitOn "\n").findSome? fun line =>
    match line.splitOn ":" with
    | [_, _, number, _, _, home, _] =>
        if number = user && !home.isEmpty then some home else none
    | _ => none

/-- The path of a name in a directory. -/
def pathIn (directory name : String) : String :=
  if directory.isEmpty || directory.toList.getLast? == some '/' then directory ++ name
  else directory ++ "/" ++ name

namespace Environment

/-- The home directory. -/
def home? (environment : Environment) : Option String :=
  match environment.valueOf? "HOME" with
  | some home => if home.isEmpty then environment.accountHome? else some home
  | none => environment.accountHome?

/-- The directory for configuration. -/
def directory? (environment : Environment) : Option String :=
  match environment.valueOf? "XDG_CONFIG_HOME" with
  | some directory => some directory
  | none => environment.home?.map fun home => pathIn home ".config"

/-- The path of the settings file. -/
def settingsPath (environment : Environment) : Except Error String :=
  match environment.valueOf? "RSQ_CONFIG" with
  | some path => .ok path
  | none =>
      match environment.directory? with
      | some directory => .ok (pathIn (pathIn directory "rsq") "config.toml")
      | none => .error .noDirectory

/-- Whether there is a file under the path. -/
def holds (environment : Environment) (path : String) : Bool :=
  environment.content path != .absent

/-- The settings. -/
def settings (environment : Environment) : Except Error Settings := do
  match environment.content (← environment.settingsPath) with
  | .absent => return .unset
  | .unreadable reason => throw (.unreadable reason)
  | .text text => read text

end Environment

end SearchQuery.Settings
