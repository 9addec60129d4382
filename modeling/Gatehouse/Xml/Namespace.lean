import Gatehouse.Xml.Mark
import Gatehouse.Xml.Node
/-!
Namespaces: which name space a tag stands for at an element, and the names of the element and its
attributes there.
-/

namespace Gatehouse.Xml

/-- What the tags stand for, the innermost declaration first. The empty tag is the default. -/
abbrev Scope := List (List Char × List Char)

namespace Scope

def fixedBase : String := "http:" ++ "//www.w3.org/"

def xmlSpace : List Char := (fixedBase ++ "XML/1998/namespace").toList

def declarationSpace : List Char := (fixedBase ++ "2000/xmlns/").toList

/-- Takes one attribute of an element: a declaration goes to the scope, any other attribute to the
attributes. A tag is declared at most once; `xml` can only be declared as what it is. -/
def take? (taken : Scope × List Attribute) (given : Attribute) : Option (Scope × List Attribute) :=
  let (own, attributes) := taken
  let (name, space) := given
  if name.tag = "xmlns".toList then
    if space = declarationSpace ∨ ¬(name.name = "xml".toList ↔ space = xmlSpace) ∨
        own.any (·.1 = name.name) then none
    else some (if space = xmlSpace then own else own ++ [(name.name, space)], attributes)
  else if name.name = "xmlns".toList then
    if space = xmlSpace ∨ space = declarationSpace then none
    else some (own ++ [([], space)], attributes)
  else some (own, attributes ++ [given])

def part? (attributes : List Attribute) : Option (Scope × List Attribute) :=
  attributes.foldlM take? ([], [])

/-- The name space of a tag. Without a declaration only the empty tag is allowed. -/
def resolve? (scope : Scope) (tag : List Char) : Option (Option (List Char)) :=
  match scope.lookup tag with
  | some space => some (some space)
  | none => if tag = [] then some none else none

def nameOf (space : Option (List Char)) (name : List Char) : Name :=
  ⟨space.map String.ofList, String.ofList name⟩

def elementName? (scope : Scope) (name : QName) : Option Name := do
  if name.tag = "xmlns".toList then none
  return nameOf (← scope.resolve? name.tag) name.name

def attributeName? (scope : Scope) (name : QName) : Option Name := do
  let space ←
    if name.tag = "xml".toList then some (some xmlSpace)
    else if name.tag = [] then some none
    else scope.resolve? name.tag
  return nameOf space name.name

def attributes? (scope : Scope) (attributes : List Attribute) : Option (List (Name × String)) := do
  let named ← attributes.mapM fun (name, value) => do
    return (← scope.attributeName? name, String.ofList value)
  if (named.map (·.1)).Nodup then some named else none

end Scope

end Gatehouse.Xml
