import SearchQuery.Settings.Basic
import SearchQuery.Toml.Document

/-!
# Settings in a file

The file is a TOML document with a version number, a table for the output and an
array of fields, all of which can be left out.  Entries with other keys are
passed over.  A record may also be given as an array of its parts, of which
there may be too many but not too few.
-/

namespace SearchQuery.Settings

open SearchQuery.Field (Kind)
open Toml (Table Value)

/-- The version number of a file. -/
def storedVersion? : Option Value → Option Nat
  | none => some version
  | some (.int n) =>
      if 0 ≤ n.toInt ∧ n.toInt < UInt32.size then some n.toInt.toNat else none
  | some _ => none

/-- What the output table says about colours. -/
def storedColor? : Option Value → Option (Option Bool)
  | none => some none
  | some .dateTime => some none
  | some (.array (.bool color :: _)) => some (some color)
  | some (.table _ output) =>
      match Table.find? output "color" with
      | none => some none
      | some (.bool color) => some (some color)
      | some _ => none
  | some _ => none

/-- Whether a value holds nothing. -/
def isEmptyValue : Value → Bool
  | .array [] => true
  | .table _ [] => true
  | _ => false

/-- A kind, by its name or by its name as the only key of a table. -/
def storedKind? : Value → Option Kind
  | .string name => Kind.ofName? name
  | .table _ [(name, inner)] => if isEmptyValue inner then Kind.ofName? name else none
  | _ => none

/-- A field from the values of its two parts. -/
def storedFieldOf? : Value → Value → Option Field
  | .string name, kind => (storedKind? kind).map fun kind => ⟨name, kind⟩
  | _, _ => none

/-- A field from a table. -/
def tabledField? (table : Table) : Option Field := do
  storedFieldOf? (← table.find? "name") (← table.find? "kind")

/-- A field. -/
def storedField? : Value → Option Field
  | .table _ table => tabledField? table
  | .array (name :: kind :: _) => storedFieldOf? name kind
  | _ => none

/-- The fields of a file. -/
def storedFields? : Option Value → Option (List Field)
  | none => some []
  | some (.array items) => items.mapM storedField?
  | some (.tables items) => items.mapM tabledField?
  | some _ => none

/-- The version number and the settings in a document. -/
def stored? (document : Table) : Option (Nat × Settings) := do
  let version ← storedVersion? (document.find? "version")
  let color ← storedColor? (document.find? "output")
  let fields ← storedFields? (document.find? "fields")
  return (version, ⟨color, fields⟩)

/-- Reads the settings in the text of a file. -/
def read (text : String) : Except Error Settings :=
  match (Table.read? text).bind stored? with
  | none => .error .malformed
  | some (found, settings) =>
      if version < found then .error (.laterVersion found) else .ok settings

end SearchQuery.Settings
