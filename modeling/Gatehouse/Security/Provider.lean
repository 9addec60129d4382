import Gatehouse.FileTree
import Gatehouse.Url.FilePath
/-!
Providers of login configurations and of policies, and the registry in which they are looked up by
name and from which they are built.
-/

namespace Gatehouse

inductive SecurityHalf where
  | login
  | policy
  deriving DecidableEq

namespace SecurityHalf

def property : SecurityHalf → String
  | login => "security.auth.login.config"
  | policy => "security.policy"

def usualProvider : SecurityHalf → String
  | login => "file-login-config"
  | policy => "file-policy"

end SecurityHalf

structure Provider where
  provider : String
  locator : String
  deriving DecidableEq

inductive ProviderFault where
  | unknown (half : SecurityHalf) (name : String)
  | unreadable (fault : FileFault)
  | custom (reason : String)
  deriving DecidableEq

def ProviderFault.unknownMessage (half : SecurityHalf) (name : String) : String :=
  let kind := match half with
    | .login => "login configuration"
    | .policy => "authorization policy"
  "no " ++ kind ++ " provider registered under `" ++ name ++ "`"

abbrev Factory := FileTree → String → Except ProviderFault Provider

/-- A provider that keeps the text of its file for those who read it. -/
structure FileProvider extends Provider where
  contents : String
  deriving DecidableEq

def FileProvider.load (half : SecurityHalf) (files : FileTree) (locator : String) :
    Except FileFault FileProvider :=
  (files.readText (Path.ofLocator locator)).map fun contents =>
    { provider := half.usualProvider, locator, contents }

def Factory.ofFile (half : SecurityHalf) : Factory := fun files locator =>
  match FileProvider.load half files locator with
  | .ok loaded => .ok loaded.toProvider
  | .error fault => .error (.unreadable fault)

structure Registry where
  /-- Of several entries for a name the first one counts. -/
  entries : List ((SecurityHalf × String) × Factory) := []

namespace Registry

def empty : Registry := {}

def register (registry : Registry) (half : SecurityHalf) (name : String) (factory : Factory) :
    Registry :=
  ⟨((half, name), factory) :: registry.entries⟩

def withDefaults : Registry :=
  [SecurityHalf.login, .policy].foldl
    (fun registry half => registry.register half half.usualProvider (Factory.ofFile half)) empty

def factory? (registry : Registry) (half : SecurityHalf) (name : String) : Option Factory :=
  registry.entries.lookup (half, name)

def build (registry : Registry) (half : SecurityHalf) (name : String) (files : FileTree)
    (locator : String) : Except ProviderFault Provider :=
  match registry.factory? half name with
  | some factory => factory files locator
  | none => .error (.unknown half name)

end Registry

end Gatehouse
