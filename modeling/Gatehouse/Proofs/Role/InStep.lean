import Gatehouse.Proofs.Role.Order
import Mathlib.Data.Finset.Card
/-!
The two fields of a set of roles, which answer different questions. Main statement:
`offerAll_in_step`, which says that after any insertions both fields, and so all answers, are about
the roles that were offered until then.
-/

namespace Gatehouse.RoleSet

/-- Inserts roles one after the other, and collects what is told of each. -/
def offerAll (set : RoleSet) : List Role → List Bool × RoleSet
  | [] => ([], set)
  | role :: rest =>
    let (new, next) := set.offer role
    let (later, last) := next.offerAll rest
    (new :: later, last)

/-! ### One insertion and many -/

theorem offer_ofList (before : List Role) (role : Role) :
    (ofList before).offer role = (decide (role ∉ before), ofList (before ++ [role])) := by
  have answer : (!(ofList before).contains role) = decide (role ∉ before) := by
    rw [decide_not, ← decide_eq_decide.2 contains_ofList, Bool.decide_coe]
  rw [offer, answer, insert_ofList]

theorem offerAll_ofList (before roles : List Role) :
    (ofList before).offerAll roles =
      (roles.mapIdx fun i role => decide (role ∉ before ++ roles.take i),
        ofList (before ++ roles)) := by
  induction roles generalizing before with
  | nil => simp [offerAll]
  | cons role rest ih => simp [offerAll, offer_ofList, ih]

/-! ### The two fields -/

theorem mem_names_ofList {roles : List Role} {name : String} :
    name ∈ (ofList roles).names ↔ ∃ role ∈ (ofList roles).toList, role.name = name := by
  have asked : name ∈ (ofList roles).names ↔ (⟨name⟩ : Role) ∈ roles := by
    rw [← contains_ofList, contains, Std.TreeSet.contains_iff_mem]
  rw [asked, toList_ofList]
  constructor
  · intro offered
    exact ⟨⟨name⟩, List.mem_eraseDups.2 offered, rfl⟩
  · rintro ⟨role, member, rfl⟩
    exact List.mem_eraseDups.1 member

/-- Equal names mean equal roles, so the names of members are as many as the members. -/
theorem size_ofList (roles : List Role) :
    (ofList roles).size = (roles.map Role.name).toFinset.card := by
  have distinct : (roles.eraseDups.map Role.name).Nodup :=
    (nodup_eraseDups roles).map fun _ _ => Role.eq_of_name_eq
  have same : (roles.eraseDups.map Role.name).toFinset = (roles.map Role.name).toFinset := by
    ext name
    simp only [List.mem_toFinset, List.mem_map, List.mem_eraseDups]
  calc (ofList roles).size
      = (roles.eraseDups.map Role.name).length := by
        rw [List.length_map, ← toList_ofList]
        rfl
    _ = (roles.eraseDups.map Role.name).toFinset.card := (List.toFinset_card_of_nodup distinct).symm
    _ = (roles.map Role.name).toFinset.card := by rw [same]

/-- After any insertions into a set that was made from a list, the order is that of the first
occurrences among all roles offered, the names are those of the members, a role is found by its name
exactly if it is contained, and the size is the number of different names offered. Each insertion
told that the role was new exactly if it had not been offered before. -/
theorem offerAll_in_step (initial offered : List Role) :
    let run := (ofList initial).offerAll offered
    let set := run.2
    let all := initial ++ offered
    run.1 = (offered.mapIdx fun i role => decide (role ∉ initial ++ offered.take i)) ∧
      set.toList = all.eraseDups ∧ set.toList.Nodup ∧
      (∀ name, name ∈ set.names ↔ ∃ role ∈ set.toList, role.name = name) ∧
      (∀ role, set.contains role = true ↔ role ∈ all) ∧
      (∀ role, set.contains role = true ↔ set.get? role.name = some role) ∧
      set.size = (all.map Role.name).toFinset.card := by
  rw [offerAll_ofList]
  intro run set all
  have ordered : (ofList all).toList = all.eraseDups := toList_ofList all
  refine ⟨rfl, ordered, ?_, fun name => mem_names_ofList, fun role => contains_ofList, ?_,
    size_ofList all⟩
  · rw [ordered]
    exact nodup_eraseDups all
  · intro role
    rw [contains_ofList, get?_ofList_eq_some_iff]
    exact (and_iff_right rfl).symm

/-- A role of the list that the set was made from, a new one, and that one again. -/
example :
    ((ofList [⟨"Admin"⟩]).offerAll [⟨"Admin"⟩, ⟨"Editor"⟩, ⟨"admin"⟩, ⟨"Editor"⟩]).1 =
      [false, true, true, false] := by decide

end Gatehouse.RoleSet
