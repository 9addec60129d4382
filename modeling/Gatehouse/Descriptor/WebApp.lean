import Gatehouse.Descriptor.Reading
import Gatehouse.Text.Blank
import Gatehouse.Xml.Document
/-!
Descriptors in the form of a `web-app` document. Elements go by their names alone, in whatever name
space, and only those in their proper places count.
-/

namespace Gatehouse

open Xml

namespace WebApp

def texts (node : Node) (name : String) : List String :=
  ((node.childrenNamed name).map fun child => Text.strip child.deepText).filter (· ≠ "")

def textsIn (node : Node) (group name : String) : List String :=
  (node.childrenNamed group).flatMap (texts · name)

/-- The constraint that a `security-constraint` element declares, with each role once. -/
def constraint (node : Node) : Constraint where
  patterns := (textsIn node "web-resource-collection" "url-pattern").map UrlPattern.parse
  roles := (textsIn node "auth-constraint" "role-name").eraseDups.map Role.mk

def declaredRoles (node : Node) : List Role := (texts node "role-name").map Role.mk

def descriptor (root : Node) : Descriptor where
  constraints := (root.childrenNamed "security-constraint").map constraint
  declaredRoles := (root.childrenNamed "security-role").flatMap declaredRoles

def read (root : Node) : Reading :=
  if root.name? = some "web-app" then
    let descriptor := descriptor root
    let patternless := descriptor.constraints.filter (·.patterns = [])
    ⟨.ok descriptor, patternless.map fun _ => .patternlessConstraint⟩
  else .fail (.wrongRoot (root.name?.getD ""))

end WebApp

def Descriptor.readWebApp (text : String) : Reading :=
  match Document.root? text.toList with
  | some root => WebApp.read root
  | none => .fail (.xmlSyntax text)

end Gatehouse
