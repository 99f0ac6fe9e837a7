import SearchQuery.Number.Binary64

/-!
# JSON values

A JSON value for output.  The entries of an object keep the order in which they
are given; `sorted` puts them in the order of their keys at every level.
-/

namespace SearchQuery.Json

open Number

/-- A JSON value. -/
inductive Value
  | null
  | bool (value : Bool)
  | int (value : Int)
  | float (value : Binary64)
  | string (text : String)
  | array (items : List Value)
  | object (entries : List (String × Value))

namespace Value

/-- The array of the encodings of a list. -/
def ofList {α : Type} (encode : α → Value) (values : List α) : Value :=
  array (values.map encode)

/-- A natural number. -/
def ofNat (n : Nat) : Value :=
  int n

/-- The entry with this key, if there is a value for it. -/
def ifGiven {α : Type} (key : String) (encode : α → Value) (value? : Option α) :
    List (String × Value) :=
  (value?.map fun value => (key, encode value)).toList

/-- The entries of an object; any other value has none. -/
def entries : Value → List (String × Value)
  | object entries => entries
  | _ => []

mutual

/-- The same value with the entries of all objects in the order of their keys. -/
def sorted : Value → Value
  | array items => array (sortedItems items)
  | object entries =>
      object ((sortedEntries entries).mergeSort fun first second => decide (first.1 ≤ second.1))
  | value => value

/-- All items with their objects in order. -/
def sortedItems : List Value → List Value
  | [] => []
  | item :: rest => item.sorted :: sortedItems rest

/-- All entries with the objects in them in order. -/
def sortedEntries : List (String × Value) → List (String × Value)
  | [] => []
  | (key, value) :: rest => (key, value.sorted) :: sortedEntries rest

end

end Value

end SearchQuery.Json
