import Gatehouse.Kdl.Node
/-!
The written form of KDL documents: a line for each node, its block indented. Names are bare words
where they can be, and all other texts stand in quotes with every unusual character escaped.
-/

namespace Gatehouse.Kdl

/-- Whether a character stands for itself in a string: it is printable in ASCII, and neither a quote
nor a backslash. -/
def isOrdinary (c : Char) : Bool :=
  0x20 ≤ c.toNat && c.toNat ≤ 0x7E && c != '"' && c != '\\'

def escape (c : Char) : List Char :=
  if isOrdinary c then [c] else ['\\', 'u', '{'] ++ Nat.toDigits 16 c.toNat ++ ['}']

def writeString (s : String) : List Char := '"' :: s.toList.flatMap escape ++ ['"']

/-- A name, which needs no quotes if it is read back without them. -/
def writeName (s : String) : List Char :=
  if s.toList.all isWord = true ∧ Token.ofWord? s.toList = some (.string s) then s.toList
  else writeString s

def writeType : Option String → List Char
  | some type => '(' :: writeName type ++ [')']
  | none => []

def Value.write : Value → List Char
  | string content => writeString content
  | number written => written.toList
  | keyword name => '#' :: name.toList

def Entry.write (entry : Entry) : List Char :=
  (match entry.key with
    | some key => writeName key ++ ['=']
    | none => []) ++ writeType entry.type ++ entry.value.write

def indent (depth : Nat) : List Char := List.replicate (4 * depth) ' '

namespace Node

mutual

def write (depth : Nat) : Node → List Char
  | mk type name entries block =>
    indent depth ++ writeType type ++ writeName name ++
      entries.flatMap (fun entry => ' ' :: entry.write) ++ writeBlock depth block ++ ['\n']

def writeBlock (depth : Nat) : Option (List Node) → List Char
  | none => []
  | some nodes => " \x7b\n".toList ++ writeAll (depth + 1) nodes ++ indent depth ++ ['}']

def writeAll (depth : Nat) : List Node → List Char
  | [] => []
  | node :: rest => node.write depth ++ writeAll depth rest

end

end Node

end Gatehouse.Kdl
