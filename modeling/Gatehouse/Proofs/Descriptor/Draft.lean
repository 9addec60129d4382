import Gatehouse.Descriptor.Draft
import Gatehouse.Proofs.Pattern.Written
/-!
What drafts declare. Main statement: `descriptor_draft`, which says that the draft of a descriptor
declares that descriptor.
-/

namespace Gatehouse

/-- What a draft constraint declares: its texts as patterns, and each of its roles once. -/
def DraftConstraint.constraint (draft : DraftConstraint) : Constraint where
  patterns := draft.patterns.map UrlPattern.parse
  roles := draft.roles.eraseDups.map Role.mk

def Draft.descriptor (draft : Draft) : Descriptor where
  constraints := draft.constraints.map DraftConstraint.constraint
  declaredRoles := draft.declaredRoles.map Role.mk

theorem eraseDups_of_nodup {α : Type} [BEq α] [LawfulBEq α] {l : List α} (apart : l.Nodup) :
    l.eraseDups = l := by
  induction l with
  | nil => rfl
  | cons a l ih =>
    obtain ⟨first, later⟩ := List.nodup_cons.1 apart
    have others : l.filter (fun b => !b == a) = l := by
      rw [List.filter_eq_self]
      rintro b member
      simpa using fun same : b = a => first (same ▸ member)
    rw [List.eraseDups_cons, others, ih later]

theorem Constraint.constraint_draft {constraint : Constraint}
    (canonical : ∀ pattern ∈ constraint.patterns, pattern.IsCanonical)
    (once : constraint.roles.Nodup) : constraint.draft.constraint = constraint := by
  have names : (constraint.roles.map Role.name).Nodup :=
    List.Pairwise.map Role.name (fun _ _ different same => different (congrArg Role.mk same)) once
  have roles : (constraint.roles.map Role.name).map Role.mk = constraint.roles := by
    rw [List.map_map]
    exact List.map_id constraint.roles
  simp only [DraftConstraint.constraint, draft, eraseDups_of_nodup names, roles,
    UrlPattern.map_parse_display canonical]

theorem Descriptor.descriptor_draft {descriptor : Descriptor}
    (canonical : ∀ constraint ∈ descriptor.constraints, ∀ pattern ∈ constraint.patterns,
      pattern.IsCanonical)
    (once : ∀ constraint ∈ descriptor.constraints, constraint.roles.Nodup) :
    descriptor.draft.descriptor = descriptor := by
  have constraints : (descriptor.constraints.map Constraint.draft).map DraftConstraint.constraint =
      descriptor.constraints := by
    rw [List.map_map]
    refine (List.map_congr_left ?_).trans (List.map_id _)
    intro constraint member
    exact Constraint.constraint_draft (canonical constraint member) (once constraint member)
  have roles : (descriptor.declaredRoles.map Role.name).map Role.mk = descriptor.declaredRoles := by
    rw [List.map_map]
    exact List.map_id descriptor.declaredRoles
  simp only [Draft.descriptor, draft, constraints, roles]

end Gatehouse
