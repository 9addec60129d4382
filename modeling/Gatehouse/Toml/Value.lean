import Gatehouse.Keyed
import Gatehouse.Toml.Moment
import Gatehouse.Toml.Number
/-!
The values of TOML, and how the expressions of a document put them into tables. A table remembers
how it came to be, because that decides what may be added to it later.
-/

namespace Gatehouse.Toml

open Number

inductive Form where
  | header
  | passed
  | dotted
  /-- By a value in braces, to which nothing can be added. -/
  | closed
  deriving DecidableEq

/-- A value. An array is `open` if it consists of the tables under headers in double brackets. -/
inductive Value where
  | string (content : String)
  | integer (n : Int)
  | float (x : Binary64)
  | boolean (b : Bool)
  | moment (moment : Moment)
  | array (isOpen : Bool) (items : List Value)
  | table (form : Form) (entries : List (String × Value))

abbrev Table := Keyed Value

/-- A change of a table, which may depend on its form, or nothing if it is not allowed. -/
abbrev Change := Form → Table → Option Table

/-- The change that changes the table at the end of a path, with new tables where there are none.
`dotted` says that the path stands in a key: such a path leads through no table that has a header.
An open array stands for its last table. -/
def Change.within (change : Change) (dotted : Bool) : List String → Change
  | [], form, table => change form table
  | key :: path, _, table =>
    match table.lookup key with
    | none => do
      let form := if dotted then .dotted else .passed
      return table.put key (.table form (← within change dotted path form []))
    | some (.table form inner) =>
      if form = .closed ∨ (dotted ∧ form = .header) then none
      else do return table.put key (.table form (← within change dotted path form inner))
    | some (.array true items) =>
      match items.getLast? with
      | some (.table form inner) => do
        let last := .table form (← within change dotted path form inner)
        return table.put key (.array true (items.dropLast ++ [last]))
      | _ => none
    | some _ => none

def addHeader (key : String) : Change := fun _ table =>
  match table.lookup key with
  | none => some (table.put key (.table .header []))
  | some (.table .passed inner) => some (table.put key (.table .header inner))
  | some _ => none

def addElement (key : String) : Change := fun _ table =>
  match table.lookup key with
  | none => some (table.put key (.array true [.table .header []]))
  | some (.array true items) => some (table.put key (.array true (items ++ [.table .header []])))
  | some _ => none

/-- Adds a value under a new key at the end of a path, which if it is not empty must have made the
table that it ends in. -/
def addValue (path : List String) (key : String) (value : Value) : Change :=
  Change.within (fun form table =>
    if (form = .dotted ↔ path = []) ∨ (table.lookup key).isSome = true then none
    else some (table.put key value)) true path

end Gatehouse.Toml
