import Gatehouse.Descriptor.Error
import Gatehouse.Role
import Gatehouse.Security.Permission
/-!
What is told to the operator: the events of a run, each with a level, a message and named fields.
-/

namespace Gatehouse

inductive Level where
  | debug
  | info
  | warn
  deriving DecidableEq

inductive FieldValue where
  | text (content : String)
  | count (n : Nat)
  | flag (value : Bool)
  deriving DecidableEq

inductive Event where
  /-- A constraint of a web application document covers no path at all. -/
  | patternlessConstraint
  | ignoredNode (name : String)
  | examining (locator : Locator)
  | loaded (constraints roles : Nat) (containerAuthorized : Bool)
  | containerAuthentication
  | customAuthentication
  | managedRoles (roles : List Role)
  | notLoaded (error : DescriptorError)
  | denied (permission : Permission)
  | policyAlreadySet (policy : String)
  | policyFileMissing (path : Path)
  | keystoreFound (path : Path)
  | keystoreMissing (path : Path)
  | loginInstalled (provider locator : String)
  | policyInstalled (provider locator : String)
  | loginAlreadyInstalled
  | initialized (containerAuthorized degraded : Bool)
  deriving DecidableEq

abbrev Log := List Event

namespace Event

def level : Event → Level
  | denied _ => .debug
  | patternlessConstraint | ignoredNode _ | policyFileMissing _ | keystoreMissing _ => .warn
  | notLoaded (.malformed _) => .warn
  | _ => .info

def message : Event → String
  | patternlessConstraint => "security-constraint without any url-pattern never matches a path"
  | ignoredNode name => "ignoring unknown top-level KDL node `" ++ name ++ "`"
  | examining _ => "Examining deployment descriptor"
  | loaded .. => "Loaded deployment descriptor"
  | containerAuthentication => "Using container-managed authentication"
  | customAuthentication => "Using custom authentication"
  | managedRoles _ => "Web container manages these roles"
  | notLoaded (.unavailable _) => "No usable deployment descriptor; using custom authentication"
  | notLoaded (.malformed _) => "Malformed deployment descriptor; using custom authentication"
  | denied _ => "denied security permission"
  | policyAlreadySet _ => "Security policy already set; leaving it alone"
  | policyFileMissing _ =>
    "Security policy file does not seem to exist; " ++
      "continuing, since this may be specific to the container"
  | keystoreFound _ =>
    "Found keystore next to the security policy; " ++
      "make sure it matches the distributed one after upgrades"
  | keystoreMissing _ =>
    "Could not locate the keystore in the same directory as the security policy; " ++
      "many containers need it there"
  | loginInstalled .. => "Installed login configuration"
  | policyInstalled .. => "Installed security policy"
  | loginAlreadyInstalled => "Login configuration already installed; leaving it alone"
  | initialized .. => "Authorizer initialized"

def fields (complaint : XmlComplaint) : Event → List (String × FieldValue)
  | examining locator => [("locator", .text locator.display)]
  | loaded constraints roles containerAuthorized =>
    [("constraints", .count constraints), ("roles", .count roles),
      ("container_authorized", .flag containerAuthorized)]
  | managedRoles roles => [("roles", .text (" ".intercalate (roles.map (·.name))))]
  | notLoaded error => [("error", .text (error.message complaint))]
  | denied permission => [("permission", .text permission.display)]
  | policyAlreadySet policy => [("policy", .text policy)]
  | policyFileMissing path => [("path", .text path.display)]
  | keystoreFound path | keystoreMissing path => [("keystore", .text path.display)]
  | loginInstalled provider locator | policyInstalled provider locator =>
    [("provider", .text provider), ("locator", .text locator)]
  | initialized containerAuthorized degraded =>
    [("container_authorized", .flag containerAuthorized), ("degraded", .flag degraded)]
  | patternlessConstraint | ignoredNode _ | containerAuthentication | customAuthentication
  | loginAlreadyInstalled => []

end Event

end Gatehouse
