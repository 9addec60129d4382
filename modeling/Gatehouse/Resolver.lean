import Gatehouse.ConstraintIndex
import Gatehouse.Descriptor.Read
import Gatehouse.Fetch
/-!
The resolver, which answers from the descriptor it loaded last. A load replaces the whole index: by
that of the descriptor, or by an empty one when there is no usable descriptor, so that every path is
unconstrained then.
-/

namespace Gatehouse

/-- A resolver. The sentinels, the timeout and the client are fixed when it is made. -/
structure Resolver where
  sentinels : Sentinels := {}
  timeout : Duration := Duration.ofSeconds 10
  client : Client := {}
  index : ConstraintIndex := ConstraintIndex.empty

structure Load where
  result : Except DescriptorError ConstraintIndex
  log : Log

namespace DescriptorSource

def loadFrom (around : Surroundings) (limits : Limits) (sentinels : Sentinels) (locator : Locator) :
    Load :=
  match locator.fetch around limits with
  | .error error => ⟨.error error, []⟩
  | .ok text =>
    let reading := Descriptor.read text
    match reading.result with
    | .error defect => ⟨.error (.malformed defect), reading.log⟩
    | .ok descriptor =>
      let index := ConstraintIndex.compile descriptor sentinels
      ⟨.ok index, reading.log ++
        [.loaded index.constraints.length index.roles.size index.containerAuthorized]⟩

def load (source : DescriptorSource) (around : Surroundings) (limits : Limits)
    (sentinels : Sentinels) : Load :=
  match source.locate around.files with
  | none => ⟨.error (.unavailable .notLocated), []⟩
  | some locator =>
    let load := loadFrom around limits sentinels locator
    { load with log := .examining locator :: load.log }

end DescriptorSource

namespace ConstraintIndex

def report (index : ConstraintIndex) : Log :=
  (if index.containerAuthorized then .containerAuthentication else .customAuthentication) ::
    if index.roles.isEmpty then [] else [.managedRoles index.roles.toList]

end ConstraintIndex

structure Resolver.Outcome where
  resolver : Resolver
  error : Option DescriptorError
  log : Log

namespace Resolver

def load (resolver : Resolver) (around : Surroundings) (source : DescriptorSource)
    (cancellation : Cancellation) : Outcome :=
  let load := source.load around ⟨resolver.timeout, cancellation, resolver.client⟩ resolver.sentinels
  match load.result with
  | .ok index => ⟨{ resolver with index }, none, load.log ++ index.report⟩
  | .error error =>
    ⟨{ resolver with index := ConstraintIndex.empty }, some error, load.log ++ [.notLoaded error]⟩

structure Request where
  around : Surroundings
  source : DescriptorSource
  cancellation : Cancellation := .never

@[simp] theorem sentinels_load (resolver : Resolver) (around : Surroundings)
    (source : DescriptorSource) (cancellation : Cancellation) :
    (resolver.load around source cancellation).resolver.sentinels = resolver.sentinels := by
  unfold load
  dsimp only
  split <;> rfl

@[simp] theorem timeout_load (resolver : Resolver) (around : Surroundings)
    (source : DescriptorSource) (cancellation : Cancellation) :
    (resolver.load around source cancellation).resolver.timeout = resolver.timeout := by
  unfold load
  dsimp only
  split <;> rfl

@[simp] theorem client_load (resolver : Resolver) (around : Surroundings)
    (source : DescriptorSource) (cancellation : Cancellation) :
    (resolver.load around source cancellation).resolver.client = resolver.client := by
  unfold load
  dsimp only
  split <;> rfl

def isConstrained (resolver : Resolver) (path : String) (role : Role) : Bool :=
  resolver.index.isConstrained path role

def findRole? (resolver : Resolver) (name : String) : Option Role := resolver.index.roles.get? name

def roles (resolver : Resolver) : List Role := resolver.index.roles.toList

def isContainerAuthorized (resolver : Resolver) : Bool := resolver.index.containerAuthorized

def isInRole (granted : String → Bool) (role : Role) : Bool := granted role.name

def sessionHolds (holds : Option (Role → Bool)) (role : Option Role) : Bool :=
  match holds, role with
  | some holds, some role => holds role
  | _, _ => false

end Resolver

end Gatehouse
