import Gatehouse.Duration
import Gatehouse.Locator
/-!
Why a descriptor cannot be used, and what is said about it. No such error is fatal: without a
descriptor every path is unconstrained.
-/

namespace Gatehouse

inductive WebFault where
  | status (code : Nat)
  | transport
  deriving DecidableEq

inductive Obstacle where
  | notLocated
  | cancelled (locator : Locator)
  | timedOut (locator : Locator) (timeout : Duration)
  | unreadable (path : Path) (fault : FileFault)
  | notLocal (url : Url)
  | unsupportedScheme (scheme : String)
  | notFetched (url : Url) (fault : WebFault)
  | cutOff (url : Url)
  deriving DecidableEq

inductive Defect where
  | notText (fault : Text.Utf8.Fault)
  | xmlSyntax (document : String)
  | wrongRoot (name : String)
  | kdlSyntax
  | unexpectedChild (name : String)
  | namelessRole
  deriving DecidableEq

inductive DescriptorError where
  | unavailable (obstacle : Obstacle)
  | malformed (defect : Defect)
  deriving DecidableEq

/-- What a reader of XML has to say of a document that it refuses, in its own words. -/
abbrev XmlComplaint := String → String

def Obstacle.message : Obstacle → String
  | notLocated => "unable to find web.xml for processing"
  | cancelled locator => "fetch of " ++ locator.display ++ " was cancelled"
  | timedOut locator timeout =>
    "fetch of " ++ locator.display ++ " timed out after " ++ timeout.display
  | unreadable path _ => "cannot read " ++ path.display
  | notLocal url => "`" ++ url.display ++ "` is not a local file path"
  | unsupportedScheme scheme => "unsupported descriptor URL scheme `" ++ scheme ++ "`"
  | notFetched url _ => "cannot fetch " ++ url.display
  | cutOff url => "cannot read body of " ++ url.display

def Defect.message (complaint : XmlComplaint) : Defect → String
  | notText fault => "descriptor is not valid UTF-8: " ++ fault.message
  | xmlSyntax document => complaint document
  | wrongRoot name => "root element is `" ++ name ++ "` (expected `web-app`)"
  | kdlSyntax => "KDL parse error: Failed to parse KDL document"
  | unexpectedChild name =>
    "unexpected child `" ++ name ++ "` in constraint (expected `url-patterns` or `roles`)"
  | namelessRole => "role node requires a string argument (e.g. role \"Admin\")"

namespace DescriptorError

def message (complaint : XmlComplaint) : DescriptorError → String
  | unavailable obstacle => "Deployment descriptor unavailable: " ++ obstacle.message
  | malformed defect => "Malformed deployment descriptor: " ++ defect.message complaint

def code : DescriptorError → String
  | unavailable _ => "warden::authz::descriptor_unavailable"
  | malformed _ => "warden::authz::malformed_descriptor"

def help : DescriptorError → String
  | unavailable _ =>
    "Place the descriptor at WEB-INF/web.xml under the configured base directory, " ++
      "or let the host resolver supply it"
  | malformed _ =>
    "The descriptor must be a `web-app` XML document or a KDL document of " ++
      "`constraint` and `role` nodes"

end DescriptorError

end Gatehouse
