import Gatehouse.Descriptor.Reading
import Gatehouse.Kdl.Node
/-!
Descriptors in the form of a KDL document, with a node for each constraint and each declared role.
-/

namespace Gatehouse

open Kdl

namespace NodeList

/-- Takes one node of a constraint's block, which says all about the patterns or about the roles. -/
def addChild (constraint : Constraint) (child : Node) : Except Defect Constraint :=
  if child.name = "url-patterns" then
    .ok { constraint with patterns := child.dashList.map UrlPattern.parse }
  else if child.name = "roles" then
    .ok { constraint with roles := child.dashList.eraseDups.map Role.mk }
  else .error (.unexpectedChild child.name)

def constraint (node : Node) : Except Defect Constraint :=
  node.children.foldlM addChild ⟨[], []⟩

def read : List Node → Reading
  | [] => ⟨.ok {}, []⟩
  | node :: rest =>
    if node.name = "constraint" then
      match constraint node with
      | .ok c => (read rest).withConstraint c
      | .error defect => .fail defect
    else if node.name = "role" then
      match node.firstString? with
      | some name => (read rest).withRole ⟨name⟩
      | none => .fail .namelessRole
    else (read rest).after (.ignoredNode node.name)

end NodeList

def Descriptor.readKdl (text : String) : Reading :=
  match Node.ofText? text.toList with
  | some nodes => NodeList.read nodes
  | none => .fail .kdlSyntax

end Gatehouse
