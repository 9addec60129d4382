/-!
The tree of an XML document.
-/

namespace Gatehouse.Xml

structure Name where
  space : Option String
  name : String
  deriving DecidableEq

inductive Node where
  | element (name : Name) (attributes : List (Name × String)) (children : List Node)
  | text (content : String)
  | comment (content : String)
  | instruction (target : String)

namespace Node

def isElement : Node → Bool
  | element .. => true
  | _ => false

def name? : Node → Option String
  | element name _ _ => some name.name
  | _ => none

def children : Node → List Node
  | element _ _ children => children
  | _ => []

def childrenNamed (node : Node) (name : String) : List Node :=
  node.children.filter (·.name? == some name)

mutual

/-- All the text inside a node, comments and instructions left out. -/
def deepText : Node → String
  | element _ _ children => deepTextAll children
  | text content => content
  | comment _ | instruction _ => ""

def deepTextAll : List Node → String
  | [] => ""
  | node :: rest => node.deepText ++ deepTextAll rest

end

theorem deepTextAll_append (nodes others : List Node) :
    deepTextAll (nodes ++ others) = deepTextAll nodes ++ deepTextAll others := by
  induction nodes with
  | nil => simp [deepTextAll]
  | cons node nodes ih => simp [deepTextAll, ih, String.append_assoc]

end Node

end Gatehouse.Xml
