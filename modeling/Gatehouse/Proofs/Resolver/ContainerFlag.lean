import Gatehouse.Proofs.Lookup.Compiled
import Gatehouse.Proofs.Resolver.LastLoad
/-!
The answer to whether the container manages authentication. It is worked out once for each index and
kept with it. Main statement: `isContainerAuthorized_run_iff`, which says that in every state of a
resolver the kept answer is the one that asking anew would give.
-/

namespace Gatehouse

namespace ConstraintIndex

/-- The wildcard asks for no role, so a scan over the paths alone decides it. -/
theorem isConstrained_compile_all_iff (descriptor : Descriptor) (sentinels : Sentinels)
    (path : String) :
    (compile descriptor sentinels).isConstrained path Role.all = true ↔
      ∃ constraint ∈ descriptor.constraints, constraint.coversPath path = true := by
  rw [isConstrained_iff]
  constructor
  · rintro ⟨id, found, _⟩
    rw [matching_compile, PathTable.mem_find_ofConstraints] at found
    obtain ⟨constraint, here, covered⟩ := found
    exact ⟨constraint, List.mem_of_getElem? here, covered⟩
  · rintro ⟨constraint, member, covered⟩
    obtain ⟨id, here⟩ := List.mem_iff_getElem?.1 member
    have found := (PathTable.mem_find_ofConstraints descriptor.constraints path id).2
      ⟨constraint, here, covered⟩
    exact ⟨id, found, fun specific => absurd rfl specific⟩

/-- The flag is read off the tables before it is stored, and no look-up reads the flag. -/
theorem containerAuthorized_compile (descriptor : Descriptor) (sentinels : Sentinels) :
    (compile descriptor sentinels).containerAuthorized =
      ((compile descriptor sentinels).isConstrained sentinels.delete Role.all &&
        (compile descriptor sentinels).isConstrained sentinels.login Role.all) := rfl

theorem compile_nothing (sentinels : Sentinels) : compile {} sentinels = empty := by
  have unprotected : (compile {} sentinels).isConstrained sentinels.delete Role.all = false := by
    rw [← Bool.not_eq_true, isConstrained_compile_all_iff]
    rintro ⟨_, member, _⟩
    cases member
  have flag := containerAuthorized_compile {} sentinels
  rw [unprotected, Bool.false_and] at flag
  calc compile {} sentinels
      = { empty with containerAuthorized := (compile {} sentinels).containerAuthorized } := rfl
    _ = empty := by rw [flag]; rfl

end ConstraintIndex

namespace Resolver

/-- The index is that of some descriptor, with the resolver's own sentinels. Having no descriptor to
use comes to having an empty one. -/
def PublishesCompiled (resolver : Resolver) : Prop :=
  ∃ descriptor, resolver.index = ConstraintIndex.compile descriptor resolver.sentinels

theorem publishesCompiled_of_empty {resolver : Resolver}
    (empty : resolver.index = ConstraintIndex.empty) : resolver.PublishesCompiled :=
  ⟨{}, by rw [empty, ConstraintIndex.compile_nothing]⟩

theorem publishesCompiled_answer (resolver : Resolver) (request : Request) :
    (resolver.answer request).resolver.PublishesCompiled := by
  rcases resolver.answer_cases request with ⟨_, _, empty⟩ | ⟨descriptor, _, _, compiled⟩
  · exact publishesCompiled_of_empty empty
  · have kept : (resolver.answer request).resolver.sentinels = resolver.sentinels :=
      sentinels_load ..
    exact ⟨descriptor, by rw [compiled, kept]⟩

variable {resolver : Resolver}

theorem PublishesCompiled.isConstrained_all_iff (compiled : resolver.PublishesCompiled)
    (path : String) :
    resolver.isConstrained path Role.all = true ↔
      ∃ constraint ∈ resolver.index.constraints, constraint.coversPath path = true := by
  obtain ⟨descriptor, index⟩ := compiled
  rw [isConstrained, index]
  exact ConstraintIndex.isConstrained_compile_all_iff descriptor resolver.sentinels path

theorem PublishesCompiled.isContainerAuthorized_iff (compiled : resolver.PublishesCompiled) :
    resolver.isContainerAuthorized = true ↔
      resolver.isConstrained resolver.sentinels.delete Role.all = true ∧
        resolver.isConstrained resolver.sentinels.login Role.all = true := by
  obtain ⟨descriptor, index⟩ := compiled
  simp only [isContainerAuthorized, isConstrained, index,
    ConstraintIndex.containerAuthorized_compile, Bool.and_eq_true]

end Resolver

namespace Site

theorem publishesCompiled_step {site : Site} (compiled : site.resolver.PublishesCompiled)
    (happening : Happening) : (site.step happening).resolver.PublishesCompiled := by
  cases happening with
  | change around => exact compiled
  | load source cancellation => exact site.resolver.publishesCompiled_answer _

theorem publishesCompiled_run {site : Site} (compiled : site.resolver.PublishesCompiled)
    (happenings : List Happening) : (site.run happenings).resolver.PublishesCompiled := by
  induction happenings generalizing site with
  | nil => exact compiled
  | cons happening rest ih => exact ih (publishesCompiled_step compiled happening)

/-- In every state that loads and changes can bring a resolver to, the kept answer is that of two
questions asked now, one for each sentinel. It is also that of a scan over the published
constraints, whatever roles they list. -/
theorem isContainerAuthorized_run_iff (sentinels : Sentinels) (timeout : Duration) (client : Client)
    (around : Surroundings) (happenings : List Happening) :
    let resolver := (run { around, resolver := { sentinels, timeout, client } } happenings).resolver
    (resolver.isContainerAuthorized = true ↔
      resolver.isConstrained sentinels.delete Role.all = true ∧
        resolver.isConstrained sentinels.login Role.all = true) ∧
      (resolver.isContainerAuthorized = true ↔
        (∃ constraint ∈ resolver.index.constraints,
            constraint.coversPath sentinels.delete = true) ∧
          ∃ constraint ∈ resolver.index.constraints,
            constraint.coversPath sentinels.login = true) := by
  intro resolver
  let fresh : Resolver := { sentinels, timeout, client }
  have compiled : resolver.PublishesCompiled :=
    publishesCompiled_run (Resolver.publishesCompiled_of_empty rfl) happenings
  have start : RemembersLast fresh { around, resolver := fresh } := rfl
  have kept : resolver.sentinels = sentinels := (remembersLast_run start happenings).sentinels
  have live := compiled.isContainerAuthorized_iff
  rw [kept] at live
  refine ⟨live, ?_⟩
  rw [live, compiled.isConstrained_all_iff, compiled.isConstrained_all_iff]

end Site

end Gatehouse
