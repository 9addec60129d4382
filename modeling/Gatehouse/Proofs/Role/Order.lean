import Gatehouse.Proofs.Lookup.Compiled
import Mathlib.Data.List.Induction
/-!
Sets of roles in the order of first insertion. Main statements: `toList_ofList`, which says that the
members come in the order in which they occur first, and `get?_ofList_eq_some_iff`, which says that
looking up a name finds the member of that name.
-/

namespace Gatehouse

/-! ### First occurrences -/

theorem eraseDups_concat {α : Type} [DecidableEq α] (l : List α) (a : α) :
    (l ++ [a]).eraseDups = if a ∈ l then l.eraseDups else l.eraseDups ++ [a] := by
  rw [List.eraseDups_append]
  by_cases known : a ∈ l
  · rw [if_pos known, List.removeAll, List.filter_cons_of_neg (by simpa using known),
      List.filter_nil, List.eraseDups_nil, List.append_nil]
  · rw [if_neg known, List.removeAll, List.filter_cons_of_pos (by simpa using known),
      List.filter_nil, List.eraseDups_cons, List.filter_nil, List.eraseDups_nil]

theorem nodup_eraseDups {α : Type} [DecidableEq α] (l : List α) : l.eraseDups.Nodup := by
  -- From the end, since the last member is the one that may have occurred before.
  induction l using List.reverseRecOn with
  | nil => exact List.nodup_nil
  | append_singleton l a ih =>
    rw [eraseDups_concat]
    split
    · exact ih
    · next fresh =>
      rw [List.nodup_append]
      refine ⟨ih, List.pairwise_singleton _ a, ?_⟩
      intro b old c new same
      rw [List.mem_singleton] at new
      subst same new
      exact fresh (List.mem_eraseDups.1 old)

namespace RoleSet

/-! ### Members -/

theorem contains_empty (role : Role) : empty.contains role = false := by
  simp [contains, empty]

theorem contains_insert (set : RoleSet) (role other : Role) :
    (set.insert role).contains other = true ↔ other = role ∨ set.contains other = true := by
  unfold insert
  split
  · next known =>
    constructor
    · exact Or.inr
    · rintro (rfl | old)
      · exact known
      · exact old
  · simp only [contains, Std.TreeSet.contains_iff_mem, Std.TreeSet.mem_insert,
      Std.compare_eq_iff_eq]
    constructor
    · rintro (name | old)
      · exact Or.inl (Role.eq_of_name_eq name.symm)
      · exact Or.inr old
    · rintro (rfl | old)
      · exact Or.inl rfl
      · exact Or.inr old

theorem contains_insertAll (set : RoleSet) (roles : List Role) (role : Role) :
    (set.insertAll roles).contains role = true ↔ role ∈ roles ∨ set.contains role = true := by
  unfold insertAll
  induction roles generalizing set with
  | nil => simp
  | cons first rest ih =>
    rw [List.foldl_cons, ih, contains_insert, List.mem_cons, or_left_comm, or_assoc]

theorem contains_ofList {roles : List Role} {role : Role} :
    (ofList roles).contains role = true ↔ role ∈ roles := by
  rw [ofList, contains_insertAll, contains_empty]
  simp

/-! ### Order and look-up -/

theorem insert_ofList (roles : List Role) (role : Role) :
    (ofList roles).insert role = ofList (roles ++ [role]) := by
  simp only [ofList, insertAll, List.foldl_append, List.foldl_cons, List.foldl_nil]

/-- Membership is answered from the names alone, so the induction needs what they contain. -/
theorem toList_ofList (roles : List Role) : (ofList roles).toList = roles.eraseDups := by
  induction roles using List.reverseRecOn with
  | nil => rfl
  | append_singleton roles role ih =>
    rw [← insert_ofList, toList_insert, ih, eraseDups_concat]
    simp only [contains_ofList]

theorem get?_eq_some_iff {set : RoleSet} {name : String} {role : Role} :
    set.get? name = some role ↔ role.name = name ∧ role ∈ set.toList := by
  constructor
  · intro found
    exact ⟨by simpa using List.find?_some found, List.mem_of_find?_eq_some found⟩
  · rintro ⟨rfl, member⟩
    have present : (set.ordered.find? (·.name == role.name)).isSome = true :=
      List.find?_isSome.2 ⟨role, member, by simp⟩
    obtain ⟨other, found⟩ := Option.isSome_iff_exists.1 present
    have name : other.name = role.name := by simpa using List.find?_some found
    rw [get?, found, Role.eq_of_name_eq name]

theorem get?_ofList_eq_some_iff {roles : List Role} {name : String} {role : Role} :
    (ofList roles).get? name = some role ↔ role.name = name ∧ role ∈ roles := by
  rw [get?_eq_some_iff, toList_ofList, List.mem_eraseDups]

end RoleSet

end Gatehouse
