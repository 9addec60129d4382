import Gatehouse.Settings.Setting
/-!
Names of settings that lead through groups: words with points between them, and positions of lists
in brackets.
-/

namespace Gatehouse

inductive KeyStep where
  | name (key : String)
  | position (n : Int)
  deriving DecidableEq

abbrev KeyPath := List KeyStep

namespace KeyPath

def isWord (c : Char) : Bool := c.isAlphanum || c == '_' || c == '-' || c == ' '

def position? (s : List Char) : Option (Int × List Char) := do
  let (negative, s) := match s with
    | '-' :: s => (true, s)
    | s => (false, s)
  let n ← Text.numeral? 10 (s.takeWhile (Text.isDigit 10))
  let n : Int := if negative then -n else n
  match s.dropWhile (Text.isDigit 10) with
  | ']' :: rest => (Text.bounded? n).map (·, rest)
  | _ => none

def steps? : (n : Nat) → List Char → Option KeyPath
  | _, [] => some []
  | 0, _ => none
  | n + 1, '.' :: s => do
    let word := s.takeWhile isWord
    if word.isEmpty then none
    return .name (String.ofList word) :: (← steps? n (s.dropWhile isWord))
  | n + 1, '[' :: s => do
    let (position, rest) ← position? s
    return .position position :: (← steps? n rest)
  | _, _ => none

/-- The way that a name describes. A name that is of another form is taken as one word. -/
def ofText (s : String) : KeyPath :=
  (steps? (s.toList.length + 1) ('.' :: s.toList)).getD [.name s]

end KeyPath

namespace Setting

/-- Puts a value at the end of a path, with new groups where there are none. -/
def setAt (value : Setting) : KeyPath → (root : Setting) → Setting
  | [], root => root
  | [.name key], root => put key value root
  | [.position n], root => root.changeItem n fun _ => value
  | .name key :: path, root => root.change key fun old => setAt value path (old.getD nothing)
  | .position n :: path, root => root.changeItem n fun old => setAt value path old

def overlay (root : Setting) (entries : Keyed Setting) : Setting :=
  entries.foldl (fun root (key, value) => setAt value (KeyPath.ofText key) root) root

end Setting

end Gatehouse
