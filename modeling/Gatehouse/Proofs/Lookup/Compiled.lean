import Gatehouse.ConstraintIndex
import Gatehouse.Proofs.Lookup.Key
/-!
What the tables of a compiled descriptor hold, and what is decided from them. Main statements:
`mem_matching_compile`, which says that the look-up finds the constraints that a scan finds, and
`isConstrained_compile_iff`, which says which paths are protected for which roles.
-/

namespace Gatehouse

namespace Constraint

def keys (constraint : Constraint) : List PathTable.Key := constraint.patterns.map UrlPattern.key

def positionsWhere (holds : Constraint → Bool) (constraints : List Constraint) : List Nat :=
  (constraints.zipIdx.filter (holds ·.1)).map (·.2)

theorem mem_positionsWhere {holds : Constraint → Bool} {constraints : List Constraint} {id : Nat} :
    id ∈ positionsWhere holds constraints ↔
      ∃ constraint, constraints[id]? = some constraint ∧ holds constraint = true := by
  simp only [positionsWhere, List.mem_map, List.mem_filter]
  constructor
  · rintro ⟨⟨constraint, _⟩, ⟨member, property⟩, rfl⟩
    exact ⟨constraint, List.mk_mem_zipIdx_iff_getElem?.1 member, property⟩
  · rintro ⟨constraint, found, property⟩
    exact ⟨(constraint, id), ⟨List.mk_mem_zipIdx_iff_getElem?.2 found, property⟩, rfl⟩

theorem coversPath_iff (constraint : Constraint) (path : String) :
    constraint.coversPath path = true ↔ ∃ key ∈ PathTable.keys path, key ∈ constraint.keys := by
  simp only [coversPath, keys, List.any_eq_true, UrlPattern.covers_iff_key_mem, List.mem_map]
  constructor
  · rintro ⟨pattern, member, asked⟩
    exact ⟨pattern.key, asked, pattern, member, rfl⟩
  · rintro ⟨_, asked, pattern, member, rfl⟩
    exact ⟨pattern, member, asked⟩

end Constraint

/-! ### Lists of positions -/

theorem appendOnce_appendOnce (id : Nat) (ids : List Nat) :
    appendOnce id (appendOnce id ids) = appendOnce id ids := by
  by_cases last : ids.getLast? = some id <;> simp [appendOnce, last]

theorem appendOnce_of_lt {id : Nat} {ids : List Nat} (below : ∀ i ∈ ids, i < id) :
    appendOnce id ids = ids ++ [id] := by
  rw [appendOnce, if_neg]
  intro last
  exact Nat.lt_irrefl id (below id (List.mem_of_getLast? last))

namespace Postings

theorem positions_post (postings : Postings) (key other : String) (id : Nat) :
    (postings.post key id).positions other =
      if other = key then appendOnce id (postings.positions key) else postings.positions other := by
  simp only [post, positions, Std.TreeMap.getD_insert, Std.compare_eq_iff_eq, eq_comm (a := key)]

theorem positions_append (postings : Postings) (key other : String) (id : Nat) :
    (postings.append key id).positions other =
      if other = key then postings.positions key ++ [id] else postings.positions other := by
  simp only [append, positions, Std.TreeMap.getD_insert, Std.compare_eq_iff_eq, eq_comm (a := key)]

end Postings

/-! ### The tables of paths -/

namespace PathTable

theorem filed_file (id : Nat) (table : PathTable) (pattern : UrlPattern) (key : Key) :
    (table.file id pattern).filed key =
      if key = pattern.key then appendOnce id (table.filed key) else table.filed key := by
  cases pattern with
  | exact name =>
    cases key <;> simp only [file, filed, UrlPattern.key, Postings.positions_post, Key.exact.injEq,
      reduceCtorEq, if_false]
    next path => split <;> simp_all
  | subtree root =>
    by_cases empty : root = ""
    · cases key <;> simp [file, filed, UrlPattern.key, empty]
    · cases key <;> simp only [file, filed, UrlPattern.key, if_neg empty, Postings.positions_post,
        Key.subtree.injEq, reduceCtorEq, if_false]
      next other => split <;> simp_all
  | extension suffix =>
    cases key <;> simp only [file, filed, UrlPattern.key, Postings.positions_post,
      Key.extension.injEq, reduceCtorEq, if_false]
    next other => split <;> simp_all
  | default => cases key <;> simp [file, filed, UrlPattern.key]
  | contextRoot => cases key <;> simp [file, filed, UrlPattern.key]

theorem filed_fileAll (table : PathTable) (constraint : Constraint) (id : Nat) (key : Key) :
    (table.fileAll constraint id).filed key =
      if key ∈ constraint.keys then appendOnce id (table.filed key) else table.filed key := by
  rw [fileAll, Constraint.keys]
  induction constraint.patterns generalizing table with
  | nil => simp
  | cons pattern rest ih =>
    rw [List.foldl_cons, ih, filed_file]
    by_cases first : key = pattern.key
    · by_cases later : pattern.key ∈ rest.map UrlPattern.key <;>
        simp [first, later, appendOnce_appendOnce]
    · simp [first]

/-- The positions come in rising order, so the check against the last one keeps them apart. -/
theorem filed_foldl (constraints : List Constraint) (first : Nat) (table : PathTable) (key : Key)
    (below : ∀ id ∈ table.filed key, id < first) :
    ((constraints.zipIdx first).foldl (fun table entry => table.fileAll entry.1 entry.2)
        table).filed key =
      table.filed key ++
        ((constraints.zipIdx first).filter fun entry => decide (key ∈ entry.1.keys)).map (·.2) := by
  induction constraints generalizing first table with
  | nil => simp
  | cons constraint rest ih =>
    have filed := filed_fileAll table constraint first key
    rw [List.zipIdx_cons, List.foldl_cons]
    by_cases member : key ∈ constraint.keys
    · rw [if_pos member, appendOnce_of_lt below] at filed
      rw [ih (first + 1), filed]
      · simp [member]
      · intro id mem
        rw [filed, List.mem_append, List.mem_singleton] at mem
        rcases mem with old | rfl
        · exact Nat.lt_succ_of_lt (below id old)
        · exact Nat.lt_succ_self id
    · rw [if_neg member] at filed
      rw [ih (first + 1), filed]
      · simp [member]
      · intro id mem
        rw [filed] at mem
        exact Nat.lt_succ_of_lt (below id mem)

theorem filed_ofConstraints (constraints : List Constraint) (key : Key) :
    (ofConstraints constraints).filed key =
      Constraint.positionsWhere (fun constraint => decide (key ∈ constraint.keys)) constraints := by
  have nothing : ({} : PathTable).filed key = [] := by
    cases key <;> simp [filed, Postings.positions]
  rw [ofConstraints, filed_foldl constraints 0 {} key (by simp [nothing]), nothing, List.nil_append]
  rfl

theorem mem_find_ofConstraints (constraints : List Constraint) (path : String) (id : Nat) :
    id ∈ (ofConstraints constraints).find path ↔
      ∃ constraint, constraints[id]? = some constraint ∧ constraint.coversPath path = true := by
  simp only [mem_find, filed_ofConstraints, Constraint.mem_positionsWhere, decide_eq_true_eq,
    Constraint.coversPath_iff]
  constructor
  · rintro ⟨key, asked, constraint, found, member⟩
    exact ⟨constraint, found, key, asked, member⟩
  · rintro ⟨constraint, found, key, asked, member⟩
    exact ⟨key, asked, constraint, found, member⟩

end PathTable

/-! ### The table of roles -/

namespace Role

theorem eq_of_name_eq {a b : Role} (name : a.name = b.name) : a = b := by
  cases a
  cases b
  exact congrArg Role.mk name

theorem eq_all_iff {role : Role} : role = all ↔ role.name = "All" :=
  ⟨fun same => congrArg Role.name same, eq_of_name_eq⟩

end Role

namespace ConstraintIndex

theorem positions_appendRoles (roles : List Role) (id : Nat) (table : Postings) (role : Role) :
    (roles.foldl (fun table role => table.append role.name id) table).positions role.name =
      table.positions role.name ++ List.replicate (roles.count role) id := by
  induction roles generalizing table with
  | nil => simp
  | cons other rest ih =>
    rw [List.foldl_cons, ih, Postings.positions_append]
    by_cases same : role = other
    · subst same
      simp [List.replicate_succ]
    · have names : role.name ≠ other.name := mt Role.eq_of_name_eq same
      simp [names, Ne.symm same]

theorem positions_postRoles (constraints : List Constraint) (role : Role) :
    (postRoles constraints).positions role.name =
      constraints.zipIdx.flatMap fun entry =>
        List.replicate (entry.1.roles.count role) entry.2 := by
  have folded (entries : List (Constraint × Nat)) (table : Postings) :
      (entries.foldl (fun table entry =>
          entry.1.roles.foldl (fun table role => table.append role.name entry.2) table)
        table).positions role.name =
        table.positions role.name ++
          entries.flatMap fun entry => List.replicate (entry.1.roles.count role) entry.2 := by
    induction entries generalizing table with
    | nil => simp
    | cons entry rest ih =>
      rw [List.foldl_cons, ih, positions_appendRoles, List.flatMap_cons, List.append_assoc]
  rw [postRoles, folded]
  simp [Postings.positions]

theorem mem_positions_postRoles {constraints : List Constraint} {role : Role} {id : Nat} :
    id ∈ (postRoles constraints).positions role.name ↔
      ∃ constraint, constraints[id]? = some constraint ∧ role ∈ constraint.roles := by
  rw [positions_postRoles, List.mem_flatMap]
  constructor
  · rintro ⟨⟨constraint, position⟩, member, listed⟩
    obtain ⟨nonzero, rfl⟩ := List.mem_replicate.1 listed
    exact ⟨constraint, List.mk_mem_zipIdx_iff_getElem?.1 member,
      List.count_pos_iff.1 (Nat.pos_of_ne_zero nonzero)⟩
  · rintro ⟨constraint, found, listed⟩
    refine ⟨(constraint, id), List.mk_mem_zipIdx_iff_getElem?.2 found, ?_⟩
    exact List.mem_replicate.2 ⟨Nat.ne_of_gt (List.count_pos_iff.2 listed), rfl⟩

/-! ### Decisions -/

/-- The decision is a meeting of the two tables in one position, where the second does not matter
for the wildcard. -/
theorem isConstrained_iff (index : ConstraintIndex) (path : String) (role : Role) :
    index.isConstrained path role = true ↔
      ∃ id ∈ index.matching path, role.name ≠ "All" → id ∈ index.byRole.positions role.name := by
  rw [isConstrained]
  cases empty : (index.matching path).isEmpty with
  | true =>
    have none := Std.TreeSet.isEmpty_iff_forall_not_mem.1 empty
    simp only [if_true, Bool.false_eq_true, false_iff, not_exists, not_and]
    intro id found
    exact absurd found (none id)
  | false =>
    obtain ⟨id, found⟩ := Std.TreeSet.isEmpty_eq_false_iff_exists_mem.1 empty
    by_cases wildcard : role.name = "All"
    · simp only [Role.eq_all_iff.2 wildcard, Bool.false_eq_true, if_false, if_true, true_iff]
      exact ⟨id, found, fun specific => absurd rfl specific⟩
    · have specific : role ≠ Role.all := mt Role.eq_all_iff.1 wildcard
      simp only [Bool.false_eq_true, if_false, if_neg specific, List.any_eq_true,
        Std.TreeSet.contains_iff_mem]
      constructor
      · rintro ⟨id, listed, found⟩
        exact ⟨id, found, fun _ => listed⟩
      · rintro ⟨id, found, listed⟩
        exact ⟨id, listed wildcard, found⟩

theorem matching_compile (descriptor : Descriptor) (sentinels : Sentinels) (path : String) :
    (compile descriptor sentinels).matching path =
      (PathTable.ofConstraints descriptor.constraints).find path := rfl

theorem byRole_compile (descriptor : Descriptor) (sentinels : Sentinels) :
    (compile descriptor sentinels).byRole = postRoles descriptor.constraints := rfl

/-- The look-up finds exactly the positions of the constraints that cover the path. -/
theorem mem_matching_compile (descriptor : Descriptor) (sentinels : Sentinels) (path : String)
    (id : Nat) :
    id ∈ (compile descriptor sentinels).matching path ↔
      ∃ constraint, descriptor.constraints[id]? = some constraint ∧
        constraint.coversPath path = true := by
  rw [matching_compile, PathTable.mem_find_ofConstraints]

/-- A path is protected for a role exactly when one constraint covers the path and, unless the role
is the wildcard, lists that role itself. -/
theorem isConstrained_compile_iff (descriptor : Descriptor) (sentinels : Sentinels) (path : String)
    (role : Role) :
    (compile descriptor sentinels).isConstrained path role = true ↔
      ∃ constraint ∈ descriptor.constraints,
        constraint.coversPath path = true ∧ (role.name ≠ "All" → role ∈ constraint.roles) := by
  rw [isConstrained_iff, matching_compile, byRole_compile]
  simp only [PathTable.mem_find_ofConstraints, mem_positions_postRoles]
  constructor
  · rintro ⟨id, ⟨constraint, here, covered⟩, listed⟩
    refine ⟨constraint, List.mem_of_getElem? here, covered, ?_⟩
    intro specific
    -- Both tables know a constraint by its position, so it is the same one.
    obtain ⟨other, there, member⟩ := listed specific
    obtain rfl := Option.some.inj (here.symm.trans there)
    exact member
  · rintro ⟨constraint, member, covered, listed⟩
    obtain ⟨id, here⟩ := List.mem_iff_getElem?.1 member
    refine ⟨id, ⟨constraint, here, covered⟩, ?_⟩
    intro specific
    exact ⟨constraint, here, listed specific⟩

end ConstraintIndex

end Gatehouse
