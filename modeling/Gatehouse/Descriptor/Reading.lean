import Gatehouse.Constraint
import Gatehouse.Event
/-!
The result of reading a descriptor: the descriptor or what is wrong with it, and what was told on
the way there.
-/

namespace Gatehouse

structure Reading where
  result : Except Defect Descriptor
  log : Log := []

namespace Reading

def fail (defect : Defect) : Reading := ⟨.error defect, []⟩

def after (event : Event) (reading : Reading) : Reading :=
  { reading with log := event :: reading.log }

def map (f : Descriptor → Descriptor) (reading : Reading) : Reading :=
  { reading with result := reading.result.map f }

def withConstraint (constraint : Constraint) (reading : Reading) : Reading :=
  reading.map fun d => { d with constraints := constraint :: d.constraints }

def withRole (role : Role) (reading : Reading) : Reading :=
  reading.map fun d => { d with declaredRoles := role :: d.declaredRoles }

end Reading

end Gatehouse
