import Gatehouse.Constraint
import Gatehouse.Kdl.Printer
import Gatehouse.Xml.Printer
/-!
Descriptors as they are written down: the texts of patterns and role names, before anything is read
into them, and the document of either form that holds them.
-/

namespace Gatehouse

structure DraftConstraint where
  patterns : List String
  roles : List String
  deriving DecidableEq

structure Draft where
  constraints : List DraftConstraint := []
  declaredRoles : List String := []
  deriving DecidableEq

def Constraint.draft (constraint : Constraint) : DraftConstraint where
  patterns := constraint.patterns.map UrlPattern.display
  roles := constraint.roles.map Role.name

def Descriptor.draft (descriptor : Descriptor) : Draft where
  constraints := descriptor.constraints.map Constraint.draft
  declaredRoles := descriptor.declaredRoles.map Role.name

/-! ### As a `web-app` document -/

namespace WebApp

open Xml

def newline (depth : Nat) : Node :=
  .text (String.ofList ('\n' :: List.replicate (2 * depth) ' '))

def onLines (depth : Nat) (nodes : List Node) : List Node :=
  nodes.flatMap (fun node => [newline (depth + 1), node]) ++ [newline depth]

def leaf (spaces : Spaces) (name content : String) : Node :=
  .element (spaces.name name) [] [.text content]

def group (spaces : Spaces) (depth : Nat) (name : String) (nodes : List Node) : Node :=
  .element (spaces.name name) [] (onLines depth nodes)

/-- The element of a constraint. Its paths are called by some name, which does not matter. -/
def constraintNode (spaces : Spaces) (constraint : DraftConstraint) : Node :=
  let resources := group spaces 2 "web-resource-collection"
    (leaf spaces "web-resource-name" "Protected" ::
      constraint.patterns.map (leaf spaces "url-pattern"))
  let roles := group spaces 2 "auth-constraint" (constraint.roles.map (leaf spaces "role-name"))
  group spaces 1 "security-constraint"
    (if constraint.roles.isEmpty then [resources] else [resources, roles])

def roleNode (spaces : Spaces) (name : String) : Node :=
  group spaces 1 "security-role" [leaf spaces "role-name" name]

end WebApp

/-- The `web-app` document of a descriptor. It has a version if it has a name space. -/
def Draft.webApp (spaces : Xml.Spaces) (draft : Draft) : String :=
  let version : List (Xml.Name × String) :=
    if spaces = .absent then [] else [(⟨none, "version"⟩, "2.4")]
  String.ofList (Xml.Document.write spaces (spaces.name "web-app") version
    (WebApp.onLines 0 (draft.constraints.map (WebApp.constraintNode spaces) ++
      draft.declaredRoles.map (WebApp.roleNode spaces))))

/-! ### As a KDL document -/

namespace NodeList

open Kdl

def withText (name content : String) : Node := .mk none name [⟨none, none, .string content⟩] none

def withBlock (name : String) (nodes : List Node) : Node := .mk none name [] (some nodes)

def constraintNode (constraint : DraftConstraint) : Node :=
  withBlock "constraint" [
    withBlock "url-patterns" (constraint.patterns.map (withText "-")),
    withBlock "roles" (constraint.roles.map (withText "-"))]

end NodeList

def Draft.nodeList (draft : Draft) : String :=
  String.ofList (Kdl.Node.writeAll 0 (draft.constraints.map NodeList.constraintNode ++
    draft.declaredRoles.map (NodeList.withText "role")))

end Gatehouse
