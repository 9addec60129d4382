import Gatehouse.Proofs.Role.Order
import Gatehouse.Resolver
/-!
The roles that a compiled descriptor knows. Main statement: `roles_known`, which says that these are
the roles that the descriptor mentions, in the order in which it does.
-/

namespace Gatehouse

/-- The roles of all constraints, as they stand in the document, and then the declared ones. -/
def Descriptor.mentionedRoles (descriptor : Descriptor) : List Role :=
  descriptor.constraints.flatMap (·.roles) ++ descriptor.declaredRoles

namespace ConstraintIndex

/-! ### Names in the table of roles -/

theorem mem_append (postings : Postings) (key other : String) (id : Nat) :
    other ∈ postings.append key id ↔ other = key ∨ other ∈ postings := by
  simp only [Postings.append, Std.TreeMap.mem_insert, Std.compare_eq_iff_eq, eq_comm (a := key)]

theorem mem_appendRoles (roles : List Role) (id : Nat) (table : Postings) (name : String) :
    name ∈ roles.foldl (fun table role => table.append role.name id) table ↔
      (∃ role ∈ roles, role.name = name) ∨ name ∈ table := by
  induction roles generalizing table with
  | nil => simp
  | cons role rest ih =>
    rw [List.foldl_cons, ih, mem_append, eq_comm (a := name), or_left_comm]
    simp only [List.mem_cons, exists_eq_or_imp, or_assoc]

theorem mem_postRoles {constraints : List Constraint} {name : String} :
    name ∈ postRoles constraints ↔
      ∃ constraint ∈ constraints, ∃ role ∈ constraint.roles, role.name = name := by
  have folded (entries : List (Constraint × Nat)) (table : Postings) :
      name ∈ entries.foldl (fun table entry =>
          entry.1.roles.foldl (fun table role => table.append role.name entry.2) table) table ↔
        (∃ entry ∈ entries, ∃ role ∈ entry.1.roles, role.name = name) ∨ name ∈ table := by
    induction entries generalizing table with
    | nil => simp
    | cons entry rest ih =>
      rw [List.foldl_cons, ih, mem_appendRoles, or_left_comm]
      simp only [List.mem_cons, exists_eq_or_imp, or_assoc]
  have untouched : name ∉ (∅ : Postings) := Std.TreeMap.not_mem_emptyc
  rw [postRoles, folded]
  constructor
  · rintro (⟨⟨constraint, id⟩, member, listed⟩ | found)
    · exact ⟨constraint, List.mem_of_getElem? (List.mk_mem_zipIdx_iff_getElem?.1 member), listed⟩
    · exact absurd found untouched
  · rintro ⟨constraint, member, listed⟩
    obtain ⟨id, here⟩ := List.mem_iff_getElem?.1 member
    exact Or.inl ⟨(constraint, id), List.mk_mem_zipIdx_iff_getElem?.2 here, listed⟩

/-! ### Known roles -/

/-- The known roles are the mentioned ones in the order of their first mention, each of them once. A
name is looked up among all of them, while the table of roles has the names of those alone that some
constraint asks for. -/
theorem roles_known (descriptor : Descriptor) (sentinels : Sentinels) (resolver : Resolver) :
    let index := compile descriptor sentinels
    let loaded := { resolver with index }
    loaded.roles = descriptor.mentionedRoles.eraseDups ∧ loaded.roles.Nodup ∧
      (∀ name role, loaded.findRole? name = some role ↔
        role.name = name ∧ role ∈ descriptor.mentionedRoles) ∧
      (∀ name, name ∈ index.byRole ↔
        ∃ constraint ∈ descriptor.constraints, ∃ role ∈ constraint.roles, role.name = name) := by
  intro index loaded
  have ordered : loaded.roles = descriptor.mentionedRoles.eraseDups :=
    RoleSet.toList_ofList descriptor.mentionedRoles
  refine ⟨ordered, ?_, ?_, ?_⟩
  · rw [ordered]
    exact nodup_eraseDups descriptor.mentionedRoles
  · intro name role
    exact RoleSet.get?_ofList_eq_some_iff
  · intro name
    exact mem_postRoles

/-- A role that is asked for twice, and a declared one that comes after it. -/
example :
    (compile ⟨[⟨[], [⟨"Admin"⟩]⟩, ⟨[], [⟨"Guest"⟩, ⟨"Admin"⟩]⟩],
        [⟨"Audit"⟩, ⟨"Guest"⟩]⟩ {}).roles.toList =
      [⟨"Admin"⟩, ⟨"Guest"⟩, ⟨"Audit"⟩] := by decide

end ConstraintIndex

end Gatehouse
