import SearchQuery.Field.Catalogue

/-!
# Settings

The settings say whether output may be coloured and which fields can be
searched.  Settings without fields stand for the fields of the index as it
comes.  Settings that cannot be had are an error of one of four kinds.
-/

namespace SearchQuery

/-- The settings of the program.  `color` is empty if nothing is said about it. -/
structure Settings where
  color : Option Bool
  fields : List Field
  deriving DecidableEq

namespace Settings

/-- The version of the form of the settings that this program reads. -/
def version : Nat :=
  1

/-- The settings where nothing is set. -/
def unset : Settings :=
  ⟨none, []⟩

/-- The fields that can be searched under these settings. -/
def searchedFields (settings : Settings) : List Field :=
  match settings.fields with
  | [] => Field.Catalogue.builtInFields
  | fields => fields

/-- The catalogue of the fields that can be searched under these settings. -/
def catalogue (settings : Settings) : Field.Catalogue :=
  .ofFields settings.searchedFields

/-- Whether the settings leave colours on. -/
def allowsColor (settings : Settings) : Bool :=
  settings.color != some false

/-- Why there are no settings: no place to look for them, a file that cannot be
read, a text that holds no settings, or settings for a later version. -/
inductive Error
  | noDirectory
  | unreadable (reason : String)
  | malformed
  | laterVersion (found : Nat)
  deriving DecidableEq

/-- The wording of an error. -/
def Error.message : Error → String
  | noDirectory => "Could not determine config directory"
  | unreadable reason => "Failed to read config: " ++ reason
  | malformed => "Failed to parse config: not a settings file"
  | laterVersion found =>
      "Config version " ++ toString found ++ " is newer than supported version " ++
        toString version

end Settings

end SearchQuery
