/-!
# The words of the command line

A command line names a command by a word, or by two, and sets switches.  Four
switches, and the one that asks for the version, belong to every command; the
others belong to single commands.
-/

namespace SearchQuery.Command

/-- The commands.  `overview` is the one without a word, and `settings` can be
followed by the word of one of the two behind it. -/
inductive Verb
  | overview
  | parse
  | check
  | terms
  | plainText
  | compose
  | operators
  | settings
  | showSettings
  | settingsPath
  deriving DecidableEq

/-- A switch that is on or off. -/
inductive Flag
  | verbose
  | quiet
  | json
  | noColor
  | asQuery
  deriving DecidableEq

/-- A switch that takes a value. -/
inductive Slot
  | field
  | comparison
  | value
  deriving DecidableEq

/-- What a switch does. -/
inductive Switch
  | flag (flag : Flag)
  | slot (slot : Slot)
  | version
  deriving DecidableEq

/-- A switch with its names: a letter, if it has one, and a word. -/
structure SwitchName where
  letter : Option Char
  word : String
  switch : Switch
  deriving DecidableEq

/-- Whether a value that is given apart may start with a hyphen. -/
def Slot.takesHyphen : Slot → Bool
  | .field => false
  | .comparison => true
  | .value => true

namespace Verb

/-- The name under which a command gives its version. -/
def title : Verb → String
  | overview => "rsq"
  | parse => "rsq-parse"
  | check => "rsq-check"
  | terms => "rsq-terms"
  | plainText => "rsq-plaintext"
  | compose => "rsq-compose"
  | operators => "rsq-operators"
  | settings => "rsq-config"
  | showSettings => "rsq-config-show"
  | settingsPath => "rsq-config-path"

/-- The command that a word stands for behind a command. -/
def next? : Verb → String → Option Verb
  | overview, "parse" => some parse
  | overview, "p" => some parse
  | overview, "check" => some check
  | overview, "c" => some check
  | overview, "terms" => some terms
  | overview, "t" => some terms
  | overview, "plaintext" => some plainText
  | overview, "compose" => some compose
  | overview, "operators" => some operators
  | overview, "config" => some settings
  | settings, "show" => some showSettings
  | settings, "path" => some settingsPath
  | _, _ => none

/-- The switches of all commands. -/
def commonSwitches : List SwitchName :=
  [⟨some 'v', "verbose", .flag .verbose⟩, ⟨some 'q', "quiet", .flag .quiet⟩,
    ⟨none, "json", .flag .json⟩, ⟨none, "no-color", .flag .noColor⟩,
    ⟨some 'V', "version", .version⟩]

/-- The switches of a command besides those. -/
def ownSwitches : Verb → List SwitchName
  | terms => [⟨some 'f', "filter", .flag .asQuery⟩]
  | compose =>
      [⟨some 'f', "field", .slot .field⟩, ⟨some 'o', "op", .slot .comparison⟩,
        ⟨none, "value", .slot .value⟩]
  | operators => [⟨some 'f', "field", .slot .field⟩]
  | _ => []

/-- All switches of a command. -/
def switches (verb : Verb) : List SwitchName :=
  commonSwitches ++ verb.ownSwitches

/-- The switch with a letter. -/
def switchOfLetter? (verb : Verb) (letter : Char) : Option Switch :=
  (verb.switches.find? (·.letter == some letter)).map SwitchName.switch

/-- The switch with a word. -/
def switchOfWord? (verb : Verb) (word : String) : Option Switch :=
  (verb.switches.find? (·.word == word)).map SwitchName.switch

/-- Whether the command has a text of its own. -/
def takesText : Verb → Bool
  | parse => true
  | check => true
  | terms => true
  | plainText => true
  | operators => true
  | _ => false

end Verb

end SearchQuery.Command
