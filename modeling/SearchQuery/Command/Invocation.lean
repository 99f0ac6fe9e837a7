import SearchQuery.Command.Verb
import SearchQuery.Field.Kind
import SearchQuery.Text.Blank

/-!
# Command lines

A command line is read argument by argument.  Words of commands come first; each
opens a part of its own, whose switches may be repeated in another part but not
in the same one.  An argument with two hyphens and nothing else makes the rest of
the command line text.

Asking for the version ends the reading at once, so it is answered whatever comes
after it.  What is missing, and that a part is both quiet and verbose, is
found only at the end.
-/

namespace SearchQuery.Command

open SearchQuery.Field (Kind)
open Query (Comparison)

/-- How output is to be given. -/
structure Options where
  verbose : Bool
  quiet : Bool
  json : Bool
  noColor : Bool
  deriving DecidableEq

/-- What comparisons are listed for. -/
inductive Listed
  | kind (kind : Kind)
  | field (name : String)
  deriving DecidableEq

/-- What is to be done. -/
inductive Task
  | overview
  | parse (query : String)
  | check (query : String)
  | terms (text : String) (asQuery : Bool)
  | plainText (query : String)
  | compose (field : String) (comparison : Comparison) (raw : String)
  | operators (listed : Listed)
  | showSettings
  | settingsPath
  deriving DecidableEq

/-- What a command line asks for. -/
inductive Invocation
  | version (verb : Verb)
  | run (options : Options) (task : Task)
  deriving DecidableEq

/-- What the arguments of one part have set. -/
structure Part where
  flags : List Flag
  text : Option String
  kind : Option Kind
  field : Option String
  comparison : Option Comparison
  value : Option String
  deriving DecidableEq

namespace Part

/-- A part without arguments. -/
def empty : Part :=
  ⟨[], none, none, none, none, none⟩

/-- Whether the part is both quiet and verbose. -/
def conflicts (part : Part) : Bool :=
  .quiet ∈ part.flags && .verbose ∈ part.flags

end Part

/-- Why no task is read from a command line: a fault in it, or that it asks for the
version. -/
inductive Stop
  | usage
  | version (verb : Verb)
  deriving DecidableEq

/-- A reader between two arguments: the command, its part, the parts before it,
the switch that waits for its value, and whether all that follows is text. -/
structure Reader where
  verb : Verb
  part : Part
  outer : List Part
  waiting : Option Slot
  textOnly : Bool
  deriving DecidableEq

namespace Reader

/-- A reader before the first argument. -/
def start : Reader :=
  ⟨.overview, .empty, [], none, false⟩

/-- The reader with a changed part. -/
def withPart (reader : Reader) (part : Part) : Reader :=
  { reader with part, waiting := none }

/-- Sets a flag, which must not be set yet. -/
def setFlag (reader : Reader) (flag : Flag) : Except Stop Reader :=
  if flag ∈ reader.part.flags then .error .usage
  else .ok (reader.withPart { reader.part with flags := flag :: reader.part.flags })

/-- Gives a value to a switch, which must not have one yet. -/
def setSlot (reader : Reader) (slot : Slot) (text : String) : Except Stop Reader :=
  let part := reader.part
  match slot with
  | .field =>
      if part.field.isSome then .error .usage
      else .ok (reader.withPart { part with field := some text })
  | .value =>
      if part.value.isSome then .error .usage
      else .ok (reader.withPart { part with value := some text })
  | .comparison =>
      match part.comparison, Comparison.ofSymbol? (String.ofList (Text.trim text.toList)) with
      | none, some comparison =>
          .ok (reader.withPart { part with comparison := some comparison })
      | _, _ => .error .usage

/-- Takes an argument as the text of the command.  The text of the command that
lists operators is the name of a kind. -/
def setText (reader : Reader) (text : String) : Except Stop Reader :=
  let part := reader.part
  if !reader.verb.takesText || part.text.isSome then .error .usage
  else if reader.verb = .operators then
    match Kind.ofNameAnyCase? text with
    | some kind => .ok (reader.withPart { part with text := some text, kind := some kind })
    | none => .error .usage
  else .ok (reader.withPart { part with text := some text })

/-- Takes a switch by its word, with the value that is joined to it. -/
def takeWord (reader : Reader) (word : String) (joined : Option String) :
    Except Stop Reader :=
  match reader.verb.switchOfWord? word, joined with
  | some (.flag flag), none => reader.setFlag flag
  | some (.slot slot), none => .ok { reader with waiting := some slot }
  | some (.slot slot), some text => reader.setSlot slot text
  | some .version, none => .error (.version reader.verb)
  | _, _ => .error .usage

/-- Takes switches by their letters.  What follows the letter of a switch that takes
a value is its value, with or without a sign of equality. -/
def takeLetters (reader : Reader) : List Char → Except Stop Reader
  | [] => .ok reader
  | letter :: rest =>
      match reader.verb.switchOfLetter? letter with
      | some (.flag flag) => do takeLetters (← reader.setFlag flag) rest
      | some .version => .error (.version reader.verb)
      | some (.slot slot) =>
          match rest with
          | [] => .ok { reader with waiting := some slot }
          | '=' :: value => reader.setSlot slot (String.ofList value)
          | value => reader.setSlot slot (String.ofList value)
      | none => .error .usage

/-- Splits a word at its first sign of equality. -/
def splitWord (text : List Char) : String × Option String :=
  match text.span (· != '=') with
  | (word, []) => (String.ofList word, none)
  | (word, _ :: joined) => (String.ofList word, some (String.ofList joined))

/-- Takes an argument that no switch waits for. -/
def takeFree (reader : Reader) (argument : String) : Except Stop Reader :=
  match reader.verb.next? argument with
  | some verb => .ok ⟨verb, .empty, reader.part :: reader.outer, none, false⟩
  | none =>
      match argument.toList with
      | ['-', '-'] => .ok { reader with textOnly := true }
      | '-' :: '-' :: rest =>
          let (word, joined) := splitWord rest
          reader.takeWord word joined
      | '-' :: letter :: rest => reader.takeLetters (letter :: rest)
      | _ => reader.setText argument

/-- Whether an argument is a switch, or two hyphens. -/
def isSwitch (argument : String) : Bool :=
  match argument.toList with
  | '-' :: _ :: _ => true
  | _ => false

/-- Takes one argument. -/
def step (reader : Reader) (argument : String) : Except Stop Reader :=
  match reader.waiting with
  | some slot =>
      if isSwitch argument && !slot.takesHyphen then .error .usage
      else reader.setSlot slot argument
  | none => if reader.textOnly then reader.setText argument else reader.takeFree argument

/-- The task of a command with its part. -/
def task? (verb : Verb) (part : Part) : Option Task :=
  match verb with
  | .overview => some .overview
  | .parse => part.text.map .parse
  | .check => part.text.map .check
  | .terms => part.text.map fun text => .terms text (.asQuery ∈ part.flags)
  | .plainText => part.text.map .plainText
  | .compose => do return .compose (← part.field) (← part.comparison) (← part.value)
  | .operators =>
      match part.kind, part.field with
      | some kind, none => some (.operators (.kind kind))
      | none, some name => some (.operators (.field name))
      | _, _ => none
  | .settings => some .showSettings
  | .showSettings => some .showSettings
  | .settingsPath => some .settingsPath

/-- What the command line asks for, at its end. -/
def finish (reader : Reader) : Except Stop Invocation :=
  let parts := reader.part :: reader.outer
  let isSet := fun flag => parts.any fun part => flag ∈ part.flags
  if reader.waiting.isSome || parts.any Part.conflicts then .error .usage
  else
    match task? reader.verb reader.part with
    | some task =>
        .ok (.run ⟨isSet .verbose, isSet .quiet, isSet .json, isSet .noColor⟩ task)
    | none => .error .usage

end Reader

/-- Reads a command line; none if it has a fault. -/
def Invocation.read? (arguments : List String) : Option Invocation :=
  match arguments.foldlM Reader.step Reader.start >>= Reader.finish with
  | .ok invocation => some invocation
  | .error (.version verb) => some (.version verb)
  | .error .usage => none

end SearchQuery.Command
