import Gatehouse.Descriptor.Read
import Gatehouse.Proofs.Descriptor.Acceptance
import Gatehouse.Proofs.Role.Order
/-!
The roles that the constraints of a document list. Main statement: `nodup_roles_of_read`, which says
that a reader of either form leaves each of them once.
-/

namespace Gatehouse.Descriptor

variable {text : String} {descriptor : Descriptor}

theorem nodup_eraseDups_roles (names : List String) : (names.eraseDups.map Role.mk).Nodup :=
  (nodup_eraseDups names).map fun _ _ => congrArg Role.name

theorem nodup_roles_of_readWebApp (accepted : (readWebApp text).result = .ok descriptor) :
    ∀ constraint ∈ descriptor.constraints, constraint.roles.Nodup := by
  unfold readWebApp at accepted
  split at accepted
  · next root _ =>
    unfold WebApp.read at accepted
    split at accepted
    · cases accepted
      intro constraint member
      obtain ⟨node, -, rfl⟩ := List.mem_map.1 member
      exact nodup_eraseDups_roles _
    · cases accepted
  · cases accepted

theorem nodup_roles_of_readKdl (accepted : (readKdl text).result = .ok descriptor) :
    ∀ constraint ∈ descriptor.constraints, constraint.roles.Nodup := by
  unfold readKdl at accepted
  split at accepted
  · next nodes _ =>
    have understood : ∀ node ∈ nodes, NodeList.IsUnderstood node := by
      by_contra puzzling
      obtain ⟨defect, failed⟩ := NodeList.exists_error_iff.2 (by simpa using puzzling)
      rw [failed] at accepted
      cases accepted
    rw [NodeList.read_of_isUnderstood understood] at accepted
    cases accepted
    intro constraint member
    obtain ⟨node, -, rfl⟩ := List.mem_map.1 member
    exact nodup_eraseDups_roles _
  · cases accepted

theorem nodup_roles_of_read (accepted : (read text).result = .ok descriptor) :
    ∀ constraint ∈ descriptor.constraints, constraint.roles.Nodup := by
  unfold read at accepted
  split at accepted
  · cases accepted
    exact List.forall_mem_nil _
  · exact nodup_roles_of_readWebApp accepted
  · exact nodup_roles_of_readKdl accepted

end Gatehouse.Descriptor
