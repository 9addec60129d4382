import Gatehouse.PathTable
/-!
The compiled form of a descriptor, which answers whether a path is protected for a role. It is
built once for each load and never changed.
-/

namespace Gatehouse

structure ConstraintIndex where
  constraints : List Constraint := []
  roles : RoleSet := {}
  paths : PathTable := {}
  byRole : Postings := ∅
  containerAuthorized : Bool := false

namespace ConstraintIndex

def empty : ConstraintIndex := {}

def matching (index : ConstraintIndex) (path : String) : Std.TreeSet Nat := index.paths.find path

/-- Whether one constraint both covers the path and asks for the role. The wildcard is satisfied by
any constraint on the path. -/
def isConstrained (index : ConstraintIndex) (path : String) (role : Role) : Bool :=
  let found := index.matching path
  if found.isEmpty then false
  else if role = Role.all then true
  else (index.byRole.positions role.name).any found.contains

/-- Files the positions of the constraints under the roles they list, repetitions included. -/
def postRoles (constraints : List Constraint) : Postings :=
  constraints.zipIdx.foldl (fun table entry =>
    entry.1.roles.foldl (fun table role => table.append role.name entry.2) table) ∅

def compile (descriptor : Descriptor) (sentinels : Sentinels) : ConstraintIndex :=
  let index : ConstraintIndex :=
    { constraints := descriptor.constraints
      roles := RoleSet.ofList
        (descriptor.constraints.flatMap (·.roles) ++ descriptor.declaredRoles)
      paths := PathTable.ofConstraints descriptor.constraints
      byRole := postRoles descriptor.constraints }
  { index with
    containerAuthorized :=
      index.isConstrained sentinels.delete Role.all &&
        index.isConstrained sentinels.login Role.all }

end ConstraintIndex

end Gatehouse
