import Std.Data.TreeMap
import Gatehouse.Security.Permission
import Gatehouse.Security.Provider
/-!
The security state that a whole process shares, and why calls on it fail. The last writer wins; a
process should be configured once. Main statements: `installed_install` and `property?_publish`,
which say that either change touches one half or one property and nothing else.
-/

namespace Gatehouse

structure SecurityState where
  login : Option Provider := none
  policy : Option Provider := none
  properties : Std.TreeMap String String := ∅

namespace SecurityState

def ofProperties (properties : List (String × String)) : SecurityState where
  properties := Std.TreeMap.ofList properties

def installed (state : SecurityState) : SecurityHalf → Option Provider
  | .login => state.login
  | .policy => state.policy

def install (state : SecurityState) (half : SecurityHalf) (provider : Option Provider) :
    SecurityState :=
  match half with
  | .login => { state with login := provider }
  | .policy => { state with policy := provider }

def property? (state : SecurityState) (name : String) : Option String := state.properties[name]?

def publish (state : SecurityState) (name value : String) : SecurityState :=
  { state with properties := state.properties.insert name value }

theorem installed_install (state : SecurityState) (half other : SecurityHalf)
    (provider : Option Provider) :
    (state.install half provider).installed other =
      if other = half then provider else state.installed other := by
  cases half <;> cases other <;> rfl

@[simp] theorem property?_install (state : SecurityState) (half : SecurityHalf)
    (provider : Option Provider) (name : String) :
    (state.install half provider).property? name = state.property? name := by
  cases half <;> rfl

@[simp] theorem installed_publish (state : SecurityState) (name value : String)
    (half : SecurityHalf) : (state.publish name value).installed half = state.installed half := by
  cases half <;> rfl

theorem property?_publish (state : SecurityState) (name value other : String) :
    (state.publish name value).property? other =
      if other = name then some value else state.property? other := by
  simp only [publish, property?, Std.TreeMap.getElem?_insert, Std.compare_eq_iff_eq,
    eq_comm (a := name)]

end SecurityState

/-- Why a call on the security state fails. Such a failure is never passed over, since going on
without the provider that was asked for would weaken the process unnoticed. -/
inductive SecurityError where
  | blankLocator (half : SecurityHalf)
  | permissionDenied (permission : Permission)
  | notInstalled (provider : String) (fault : ProviderFault)
  deriving DecidableEq

namespace SecurityError

def message : SecurityError → String
  | blankLocator .login => "Invalid argument: locator for login configuration cannot be empty"
  | blankLocator .policy => "Invalid argument: locator for security policy cannot be empty"
  | permissionDenied permission =>
    "Permission denied: caller lacks `" ++ permission.display ++ "`"
  | notInstalled provider _ => "Cannot install provider `" ++ provider ++ "`"

def code : SecurityError → String
  | blankLocator _ => "warden::security::invalid_argument"
  | permissionDenied _ => "warden::security::permission_denied"
  | notInstalled .. => "warden::security::configuration"

def help : SecurityError → String
  | blankLocator _ => "Pass a non-empty `file:` URL or filesystem path"
  | permissionDenied _ => "Grant the permission to the calling execution context"
  | notInstalled .. =>
    "Check that the provider is registered and that its configuration file is readable"

end SecurityError

end Gatehouse
