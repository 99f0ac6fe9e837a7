import SearchQuery.Number.Binary64

/-!
# TOML tables

A document is a table of values under keys, and tables can be built up in
several places: by a header of their own, by the header of a table inside them,
by dotted keys, or by an array of tables that later headers make longer.  What
may still be added to a table depends on how it came about:

* a table with its own header has no second one;
* a table that was only named on the way to another header may still get its own;
* dotted keys add only to tables that no header and no braces have made;
* a table in braces is complete.

No key can be given a value twice.
-/

namespace SearchQuery.Toml

open Number

/-- How a table came about. -/
inductive Origin
  | header
  | passage
  | dotted
  | braces
  deriving DecidableEq

/-- A TOML value.  Of a date or a time it is known only that it is one. -/
inductive Value
  | string (text : String)
  | int (value : Int64)
  | float (value : Binary64)
  | bool (value : Bool)
  | dateTime
  | array (items : List Value)
  | tables (items : List (List (String × Value)))
  | table (origin : Origin) (entries : List (String × Value))

/-- The values under their keys. -/
abbrev Table :=
  List (String × Value)

namespace Table

/-- The value under a key. -/
def find? (table : Table) (key : String) : Option Value :=
  table.lookup key

/-- The table with this value under the key, in place of the old one if there was
one. -/
def put (key : String) (value : Value) : Table → Table
  | [] => [(key, value)]
  | (name, old) :: rest =>
      if name = key then (key, value) :: rest else (name, old) :: put key value rest

/-- Gives a value to a key that has none. -/
def add? (table : Table) (key : String) (value : Value) : Option Table :=
  match table.find? key with
  | some _ => none
  | none => some (table.put key value)

/-- Changes the last item of a list. -/
def changeLast? {α : Type} (change : α → Option α) : List α → Option (List α)
  | [] => none
  | [item] => (change item).map fun item => [item]
  | first :: rest => (changeLast? change rest).map fun rest => first :: rest

/-- Gives a value to a dotted key: `path` leads to the table that holds it, and
`settable` says whether the table at the start of the path may get entries this
way. -/
def assign? (key : String) (value : Value) :
    (path : List String) → (settable : Bool) → Table → Option Table
  | [], settable, table => if settable then table.add? key value else none
  | step :: path, _, table =>
      match table.find? step with
      | none =>
          (assign? key value path true []).map fun inner => table.put step (.table .dotted inner)
      | some (.table .dotted inner) =>
          (assign? key value path true inner).map fun inner =>
            table.put step (.table .dotted inner)
      | some (.table .passage inner) =>
          (assign? key value path false inner).map fun inner =>
            table.put step (.table .passage inner)
      | some (.tables items) =>
          (changeLast? (assign? key value path false) items).map fun items =>
            table.put step (.tables items)
      | _ => none

/-- Changes the table to which a header leads.  Tables that are missing on the way
come about, and an array of tables stands for its last table. -/
def within? (change : Table → Option Table) : (path : List String) → Table → Option Table
  | [], table => change table
  | step :: path, table =>
      match table.find? step with
      | none =>
          (within? change path []).map fun inner => table.put step (.table .passage inner)
      | some (.table .braces _) => none
      | some (.table origin inner) =>
          (within? change path inner).map fun inner => table.put step (.table origin inner)
      | some (.tables items) =>
          (changeLast? (within? change path) items).map fun items =>
            table.put step (.tables items)
      | _ => none

/-- Gives the table under a key its header and fills it. -/
def head? (key : String) (fill : Table → Option Table) (table : Table) : Option Table :=
  match table.find? key with
  | none => (fill []).map fun inner => table.put key (.table .header inner)
  | some (.table .passage inner) =>
      (fill inner).map fun inner => table.put key (.table .header inner)
  | _ => none

/-- Fills a new table at the end of the array of tables under a key. -/
def lengthen? (key : String) (fill : Table → Option Table) (table : Table) : Option Table :=
  match table.find? key with
  | none => (fill []).map fun inner => table.put key (.tables [inner])
  | some (.tables items) =>
      (fill []).map fun inner => table.put key (.tables (items ++ [inner]))
  | _ => none

end Table

/-- A dotted key, split into the path and the last part, with its value. -/
structure Assignment where
  path : List String
  key : String
  value : Value

/-- A header: of a table, or of one more table in an array. -/
structure Header where
  inArray : Bool
  path : List String
  key : String

/-- A header with the assignments below it. -/
structure Section where
  header : Header
  assignments : List Assignment

namespace Table

/-- Makes the assignments in this order. -/
def assignAll? (assignments : List Assignment) (table : Table) : Option Table :=
  assignments.foldlM
    (fun table assignment => table.assign? assignment.key assignment.value assignment.path true)
    table

/-- Adds a section to a document. -/
def addSection? (table : Table) (part : Section) : Option Table :=
  let fill := assignAll? part.assignments
  let change := if part.header.inArray then lengthen? part.header.key fill
    else head? part.header.key fill
  table.within? change part.header.path

/-- The document of some assignments before the first header and the sections
behind it. -/
def ofSections? (assignments : List Assignment) (sections : List Section) : Option Table := do
  sections.foldlM addSection? (← assignAll? assignments [])

end Table

end SearchQuery.Toml
