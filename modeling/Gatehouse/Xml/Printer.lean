import Gatehouse.Xml.Node
/-!
The written form of a document. It is the plainest one that reads back: every element has two tags,
and no character is a reference unless it must be.
-/

namespace Gatehouse.Xml

/-- How the name space of the elements is written, all of which are in one or in none. -/
inductive Spaces where
  | absent
  | default (space : String)
  | tagged (tag space : String)
  deriving DecidableEq

namespace Spaces

def name (spaces : Spaces) (name : String) : Name :=
  match spaces with
  | absent => ⟨none, name⟩
  | default space | tagged _ space => ⟨some space, name⟩

def writeName (spaces : Spaces) (name : Name) : List Char :=
  match spaces with
  | tagged tag _ => tag.toList ++ ':' :: name.name.toList
  | _ => name.name.toList

end Spaces

def escape (c : Char) : List Char :=
  match c with
  | '&' => "&amp;".toList
  | '<' => "&lt;".toList
  | '>' => "&gt;".toList
  | c => [c]

def escapeQuote (c : Char) : List Char := if c = '"' then "&quot;".toList else escape c

def writeAttribute (name : List Char) (value : String) : List Char :=
  ' ' :: name ++ '=' :: '"' :: value.toList.flatMap escapeQuote ++ ['"']

def writeAttributes (attributes : List (Name × String)) : List Char :=
  attributes.flatMap fun (name, value) => writeAttribute name.name.toList value

def Spaces.declare : Spaces → List Char
  | absent => []
  | default space => writeAttribute "xmlns".toList space
  | tagged tag space => writeAttribute ("xmlns:".toList ++ tag.toList) space

def writeElement (name attributes content : List Char) : List Char :=
  '<' :: name ++ attributes ++ '>' :: content ++ '<' :: '/' :: name ++ ['>']

namespace Node

mutual

def write (spaces : Spaces) : Node → List Char
  | element name attributes children =>
    writeElement (spaces.writeName name) (writeAttributes attributes) (writeAll spaces children)
  | text content => content.toList.flatMap escape
  | comment content => "<!--".toList ++ content.toList ++ "-->".toList
  | instruction target => '<' :: '?' :: target.toList ++ ['?', '>']

def writeAll (spaces : Spaces) : List Node → List Char
  | [] => []
  | node :: rest => node.write spaces ++ writeAll spaces rest

end

end Node

namespace Document

def declaration : List Char := "<?xml version=\"1.0\" encoding=\"UTF-8\"?>\n".toList

def write (spaces : Spaces) (name : Name) (attributes : List (Name × String))
    (children : List Node) : List Char :=
  declaration ++
    writeElement (spaces.writeName name) (spaces.declare ++ writeAttributes attributes)
      (Node.writeAll spaces children) ++ ['\n']

end Document

end Gatehouse.Xml
