import Gatehouse.Role
import Gatehouse.UrlPattern
/-!
What a deployment descriptor declares: constraints on paths, and roles.
-/

namespace Gatehouse

/-- One declared constraint: the paths it covers and the roles it asks for. No roles at all means
that none in particular is asked for, which is not the same as the wildcard. -/
structure Constraint where
  patterns : List UrlPattern
  roles : List Role
  deriving DecidableEq

namespace Constraint

def coversPath (constraint : Constraint) (path : String) : Bool :=
  constraint.patterns.any (·.covers path)

def requires (constraint : Constraint) (role : Role) : Bool := constraint.roles.contains role

end Constraint

structure Descriptor where
  constraints : List Constraint := []
  declaredRoles : List Role := []
  deriving DecidableEq

/-- The two paths that are both protected when the container manages authentication for the whole
application. -/
structure Sentinels where
  delete : String := "/Delete.jsp"
  login : String := "/Login.jsp"
  deriving DecidableEq

end Gatehouse
