import Std.Data.TreeSet
/-!
Roles, which are permission groups known by name, and sets of roles that remember the order in
which their members came.
-/

namespace Gatehouse

/-- A named permission group. Names are case-sensitive. -/
structure Role where
  name : String
  deriving DecidableEq

namespace Role

def all : Role := ⟨"All"⟩

def authenticated : Role := ⟨"Authenticated"⟩

def isAll (role : Role) : Bool := role == all

def isAuthenticated (role : Role) : Bool := role == authenticated

def sorted (roles : List Role) : List Role :=
  roles.mergeSort fun a b => decide (a.name ≤ b.name)

end Role

/-- A set of roles in the order of first insertion. Membership is answered from `names`; order,
look-up and size from `ordered`. -/
structure RoleSet where
  ordered : List Role := []
  names : Std.TreeSet String := ∅

namespace RoleSet

def empty : RoleSet := {}

def contains (set : RoleSet) (role : Role) : Bool := set.names.contains role.name

def insert (set : RoleSet) (role : Role) : RoleSet :=
  if set.contains role then set
  else ⟨set.ordered ++ [role], set.names.insert role.name⟩

/-- Inserts a role and tells whether it is new. -/
def offer (set : RoleSet) (role : Role) : Bool × RoleSet := (!set.contains role, set.insert role)

def insertAll (set : RoleSet) (roles : List Role) : RoleSet := roles.foldl insert set

def ofList (roles : List Role) : RoleSet := empty.insertAll roles

def get? (set : RoleSet) (name : String) : Option Role := set.ordered.find? (·.name == name)

def toList (set : RoleSet) : List Role := set.ordered

def size (set : RoleSet) : Nat := set.ordered.length

def isEmpty (set : RoleSet) : Bool := set.ordered.isEmpty

theorem toList_insert (set : RoleSet) (role : Role) :
    (set.insert role).toList = if set.contains role then set.toList else set.toList ++ [role] := by
  unfold insert toList
  split <;> rfl

end RoleSet

end Gatehouse
