import Gatehouse.Descriptor.Error
/-!
Pages as the program is given them. How a client asks for a page, follows redirects and keeps its own
time is no part of the program, so a web is whatever comes of that.
-/

namespace Gatehouse

structure Client where
  /-- The time after which the client itself gives up, from the request to the end of the body. -/
  timeout : Option Duration := none
  deriving DecidableEq

inductive Reply where
  | failed
  /-- The page at the end of all redirects. It has no body when less came than was announced. -/
  | page (status : Nat) (body : Option (List UInt8))
  deriving DecidableEq

/-- What comes of a request, and how long that takes. -/
inductive Exchange where
  | over (delay : Duration) (reply : Reply)
  | never
  deriving DecidableEq

abbrev Web := Client → Url → Exchange

namespace Web

/-- The web when nobody listens. -/
def silent : Web := fun _ _ => .over ⟨0⟩ .failed

end Web

namespace Reply

/-- Statuses from 400 to 599 are those of errors. -/
def IsRefusal (status : Nat) : Prop := 400 ≤ status ∧ status < 600

instance (status : Nat) : Decidable (IsRefusal status) := inferInstanceAs (Decidable (_ ∧ _))

/-- What a reply to a request for a page comes to. The status is looked at before the body. -/
def read (url : Url) : Reply → Except Obstacle (List UInt8)
  | failed => .error (.notFetched url .transport)
  | page status body =>
    if IsRefusal status then .error (.notFetched url (.status status))
    else
      match body with
      | some octets => .ok octets
      | none => .error (.cutOff url)

end Reply

end Gatehouse
