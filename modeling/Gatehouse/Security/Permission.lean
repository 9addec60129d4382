/-!
The rights that calls on the security state need, and the rights that a caller has.
-/

namespace Gatehouse

inductive Permission where
  | getLoginConfiguration
  | setLoginConfiguration
  | writeLoginConfigProperty
  | readPolicyProperty
  | writePolicyProperty
  | setPolicy
  | readSecurityProperty
  deriving DecidableEq

namespace Permission

def display : Permission → String
  | getLoginConfiguration => "getLoginConfiguration"
  | setLoginConfiguration => "setLoginConfiguration"
  | writeLoginConfigProperty => "write:security.auth.login.config"
  | readPolicyProperty => "read:security.policy"
  | writePolicyProperty => "write:security.policy"
  | setPolicy => "setPolicy"
  | readSecurityProperty => "read:security.provider"

def every : List Permission :=
  [getLoginConfiguration, setLoginConfiguration, writeLoginConfigProperty, readPolicyProperty,
    writePolicyProperty, setPolicy, readSecurityProperty]

theorem mem_every (permission : Permission) : permission ∈ every := by
  cases permission <;> decide

end Permission

inductive CallerContext where
  | unrestricted
  | restricted (granted : List Permission)
  deriving DecidableEq

namespace CallerContext

def allows : CallerContext → Permission → Bool
  | unrestricted, _ => true
  | restricted granted, permission => granted.contains permission

def firstDenied? (context : CallerContext) (needed : List Permission) : Option Permission :=
  needed.find? (!context.allows ·)

end CallerContext

end Gatehouse
