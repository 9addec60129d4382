import Gatehouse.Proofs.Descriptor.ListedRoles
import Gatehouse.Proofs.Lookup.Compiled
/-!
The form of compiled tables. A path table keeps a position once under a key, and the table of roles
keeps it as often as its constraint lists the role. Main statement: `tables_compile`, which says
which positions stand where, and in which order.
-/

namespace Gatehouse

/-! ### Lists of positions -/

namespace Constraint

/-- The positions of the constraints of which something holds, in rising order. -/
structure Locates (constraints : List Constraint) (holds : Constraint → Prop) (ids : List Nat) :
    Prop where
  rising : ids.Pairwise (· < ·)
  below : ∀ id ∈ ids, id < constraints.length
  mem_iff : ∀ id constraint, constraints[id]? = some constraint → (id ∈ ids ↔ holds constraint)

/-- The positions of constraints in order, each of them as many times as is said of its
constraint. -/
structure Tallies (constraints : List Constraint) (times : Constraint → Nat) (ids : List Nat) :
    Prop where
  sorted : ids.Pairwise (· ≤ ·)
  below : ∀ id ∈ ids, id < constraints.length
  count_eq : ∀ id constraint, constraints[id]? = some constraint → ids.count id = times constraint

variable {constraints : List Constraint}

theorem pairwise_zipIdx (constraints : List Constraint) :
    constraints.zipIdx.Pairwise fun earlier later => earlier.2 < later.2 := by
  rw [← List.pairwise_map, List.zipIdx_map_snd]
  exact List.pairwise_lt_range' 1

theorem locates_positionsWhere (holds : Constraint → Bool) (constraints : List Constraint) :
    Locates constraints (holds · = true) (positionsWhere holds constraints) where
  rising := by
    rw [positionsWhere, List.pairwise_map]
    exact (pairwise_zipIdx constraints).sublist List.filter_sublist
  below := by
    intro id member
    obtain ⟨constraint, here, -⟩ := mem_positionsWhere.1 member
    exact (List.getElem?_eq_some_iff.1 here).1
  mem_iff := by
    intro id constraint here
    rw [mem_positionsWhere, here]
    constructor
    · rintro ⟨other, same, property⟩
      cases same
      exact property
    · intro property
      exact ⟨constraint, rfl, property⟩

theorem Locates.congr {holds other : Constraint → Prop} {ids : List Nat}
    (locates : Locates constraints holds ids)
    (same : ∀ constraint, holds constraint ↔ other constraint) : Locates constraints other ids where
  rising := locates.rising
  below := locates.below
  mem_iff := fun id constraint here => (locates.mem_iff id constraint here).trans (same constraint)

/-- What is counted at one position comes from the constraint there, since those before it and after
it have lower and higher positions. -/
theorem count_flatMap_replicate {id : Nat} {constraint : Constraint} (times : Constraint → Nat)
    (here : constraints[id]? = some constraint) :
    (constraints.zipIdx.flatMap fun entry => List.replicate (times entry.1) entry.2).count id =
      times constraint := by
  obtain ⟨inside, rfl⟩ := List.getElem?_eq_some_iff.1 here
  have lower : id ∉ (constraints.take id).zipIdx.flatMap fun entry =>
      List.replicate (times entry.1) entry.2 := by
    intro member
    obtain ⟨entry, before, listed⟩ := List.mem_flatMap.1 member
    have position : id = entry.2 := List.eq_of_mem_replicate listed
    have bound := List.snd_lt_of_mem_zipIdx before
    rw [List.length_take] at bound
    omega
  have higher : id ∉ ((constraints.drop (id + 1)).zipIdx (id + 1)).flatMap fun entry =>
      List.replicate (times entry.1) entry.2 := by
    intro member
    obtain ⟨entry, after, listed⟩ := List.mem_flatMap.1 member
    have position : id = entry.2 := List.eq_of_mem_replicate listed
    have bound := List.le_snd_of_mem_zipIdx after
    omega
  have cut : constraints.zipIdx = (constraints.take id).zipIdx ++
      (constraints[id], id) :: (constraints.drop (id + 1)).zipIdx (id + 1) := by
    calc constraints.zipIdx
        = (constraints.take id ++ constraints[id] :: constraints.drop (id + 1)).zipIdx := by
          rw [List.getElem_cons_drop, List.take_append_drop]
      _ = _ := by
          rw [List.zipIdx_append, List.zipIdx_cons, List.length_take_of_le (Nat.le_of_lt inside),
            Nat.zero_add]
  rw [cut, List.flatMap_append, List.flatMap_cons, List.count_append, List.count_append,
    List.count_eq_zero_of_not_mem lower, List.count_eq_zero_of_not_mem higher,
    List.count_replicate_self, Nat.zero_add, Nat.add_zero]

theorem Tallies.rising {times : Constraint → Nat} {ids : List Nat}
    (tallies : Tallies constraints times ids)
    (once : ∀ constraint ∈ constraints, times constraint ≤ 1) : ids.Pairwise (· < ·) := by
  have apart : ids.Nodup := by
    rw [List.nodup_iff_count_le_one]
    intro id
    by_cases inside : id < constraints.length
    · rw [tallies.count_eq id _ (List.getElem?_eq_getElem inside)]
      exact once _ (List.getElem_mem inside)
    · rw [List.count_eq_zero_of_not_mem (mt (tallies.below id) inside)]
      exact Nat.zero_le 1
  exact (tallies.sorted.and apart).imp fun both => Nat.lt_of_le_of_ne both.1 both.2

end Constraint

/-! ### Entries -/

theorem appendOnce_ne_nil (id : Nat) (ids : List Nat) : appendOnce id ids ≠ [] := by
  unfold appendOnce
  split
  · next last =>
    rintro rfl
    cases last
  · exact List.concat_ne_nil id ids

namespace Postings

/-- Whether a table has keys for those alone under which something stands. -/
def IsOccupied (postings : Postings) : Prop :=
  ∀ (key : String) (ids : List Nat), postings[key]? = some ids → ids ≠ []

theorem isOccupied_empty : IsOccupied ∅ := by
  intro key ids found
  simp at found

variable {postings : Postings} (occupied : postings.IsOccupied)
include occupied

theorem IsOccupied.insert (key : String) {ids : List Nat} (nonempty : ids ≠ []) :
    IsOccupied (Std.TreeMap.insert postings key ids) := by
  intro other found entry
  rw [Std.TreeMap.getElem?_insert] at entry
  split at entry
  · cases entry
    exact nonempty
  · exact occupied other found entry

theorem IsOccupied.post (key : String) (id : Nat) : (postings.post key id).IsOccupied :=
  occupied.insert key (appendOnce_ne_nil id _)

theorem IsOccupied.append (key : String) (id : Nat) : (postings.append key id).IsOccupied :=
  occupied.insert key (List.concat_ne_nil id _)

end Postings

namespace PathTable

/-- Whether all keys of a path table have positions, and none of them is the empty root. -/
structure IsProper (table : PathTable) : Prop where
  exact : table.exact.IsOccupied
  subtrees : table.subtrees.IsOccupied
  extensions : table.extensions.IsOccupied
  rooted : "" ∉ table.subtrees

theorem isProper_nothing : IsProper {} where
  exact := Postings.isOccupied_empty
  subtrees := Postings.isOccupied_empty
  extensions := Postings.isOccupied_empty
  rooted := Std.TreeMap.not_mem_emptyc

theorem IsProper.file {table : PathTable} (proper : table.IsProper) (id : Nat)
    (pattern : UrlPattern) : (table.file id pattern).IsProper := by
  obtain ⟨exact, subtrees, extensions, rooted⟩ := proper
  cases pattern with
  | exact path => exact ⟨exact.post path id, subtrees, extensions, rooted⟩
  | subtree root =>
    rw [PathTable.file]
    split
    · exact ⟨exact, subtrees, extensions, rooted⟩
    · next named =>
      refine ⟨exact, subtrees.post root id, extensions, ?_⟩
      rw [Postings.post, Std.TreeMap.mem_insert, Std.compare_eq_iff_eq]
      exact not_or.2 ⟨named, rooted⟩
  | extension suffix => exact ⟨exact, subtrees, extensions.post suffix id, rooted⟩
  | default | contextRoot => exact ⟨exact, subtrees, extensions, rooted⟩

theorem IsProper.fileAll {table : PathTable} (proper : table.IsProper) (constraint : Constraint)
    (id : Nat) : (table.fileAll constraint id).IsProper := by
  rw [PathTable.fileAll]
  induction constraint.patterns generalizing table with
  | nil => exact proper
  | cons pattern rest ih => exact ih (proper.file id pattern)

theorem isProper_ofConstraints (constraints : List Constraint) :
    (ofConstraints constraints).IsProper := by
  refine List.foldlRecOn _ _ isProper_nothing ?_
  intro table proper entry _
  exact proper.fileAll entry.1 entry.2

end PathTable

theorem ConstraintIndex.isOccupied_postRoles (constraints : List Constraint) :
    (postRoles constraints).IsOccupied := by
  refine List.foldlRecOn _ _ Postings.isOccupied_empty ?_
  intro table occupied entry _
  refine List.foldlRecOn _ _ occupied ?_
  intro table occupied role _
  exact occupied.append role.name entry.2

/-! ### What stands under a key -/

/-- Whether a pattern is of the kind and has the text of a key. -/
def PathTable.Key.Takes : PathTable.Key → UrlPattern → Prop
  | .exact path, pattern => pattern = .exact path
  | .subtree root, pattern => root ≠ "" ∧ pattern = .subtree root
  | .extension suffix, pattern => pattern = .extension suffix
  | .catchAll, pattern => pattern = .default ∨ pattern = .subtree ""
  | .contextRoot, pattern => pattern = .contextRoot

theorem UrlPattern.key_eq_iff (pattern : UrlPattern) (key : PathTable.Key) :
    pattern.key = key ↔ key.Takes pattern := by
  cases pattern with
  | subtree root =>
    by_cases empty : root = ""
    · subst empty
      cases key <;> simp [UrlPattern.key, PathTable.Key.Takes]
    · cases key with
      | subtree other =>
        rw [UrlPattern.key, if_neg empty]
        constructor
        · rintro ⟨⟩
          exact ⟨empty, rfl⟩
        · rintro ⟨-, ⟨⟩⟩
          rfl
      | _ => simp [UrlPattern.key, PathTable.Key.Takes, empty]
  | exact | extension | default | contextRoot =>
    cases key <;> simp [UrlPattern.key, PathTable.Key.Takes]

theorem PathTable.locates_filed (constraints : List Constraint) (key : Key) :
    Constraint.Locates constraints
      (fun constraint => ∃ pattern ∈ constraint.patterns, key.Takes pattern)
      ((ofConstraints constraints).filed key) := by
  rw [filed_ofConstraints]
  refine (Constraint.locates_positionsWhere _ constraints).congr ?_
  intro constraint
  rw [decide_eq_true_iff]
  simp only [Constraint.keys, List.mem_map, UrlPattern.key_eq_iff]

theorem ConstraintIndex.tallies_postRoles (constraints : List Constraint) (role : Role) :
    Constraint.Tallies constraints (·.roles.count role)
      ((postRoles constraints).positions role.name) where
  sorted := by
    rw [positions_postRoles, List.pairwise_flatMap]
    refine ⟨fun entry _ => List.pairwise_replicate_of_refl, ?_⟩
    refine (Constraint.pairwise_zipIdx constraints).imp ?_
    intro earlier later order x first y second
    rw [List.eq_of_mem_replicate first, List.eq_of_mem_replicate second]
    exact Nat.le_of_lt order
  below := by
    intro id member
    obtain ⟨constraint, here, -⟩ := mem_positions_postRoles.1 member
    exact (List.getElem?_eq_some_iff.1 here).1
  count_eq := by
    intro id constraint here
    rw [positions_postRoles]
    exact Constraint.count_flatMap_replicate (·.roles.count role) here

namespace ConstraintIndex

/-- Under a key of a path table stand the positions of exactly those constraints that have a pattern
of its kind and with its text, in rising order. Each key has some, and none is the empty root. Under
a role stands each position as often as its constraint lists the role, in order. So it stands there
once at most if the descriptor was read from a text of either form. -/
theorem tables_compile (descriptor : Descriptor) (sentinels : Sentinels) :
    let index := compile descriptor sentinels
    let constraints := index.constraints
    (∀ key : PathTable.Key, Constraint.Locates constraints
        (fun constraint => ∃ pattern ∈ constraint.patterns, key.Takes pattern)
        (index.paths.filed key)) ∧
      index.paths.IsProper ∧
      (∀ role : Role, Constraint.Tallies constraints (·.roles.count role)
        (index.byRole.positions role.name)) ∧
      index.byRole.IsOccupied ∧
      ∀ text, (Descriptor.read text).result = .ok descriptor →
        ∀ name, (index.byRole.positions name).Pairwise (· < ·) := by
  intro index constraints
  have tallies : ∀ role : Role, Constraint.Tallies constraints (·.roles.count role)
      (index.byRole.positions role.name) := tallies_postRoles descriptor.constraints
  refine ⟨PathTable.locates_filed descriptor.constraints,
    PathTable.isProper_ofConstraints descriptor.constraints, tallies,
    isOccupied_postRoles descriptor.constraints, ?_⟩
  intro text accepted name
  have once := Descriptor.nodup_roles_of_read accepted
  refine (tallies ⟨name⟩).rising ?_
  intro constraint member
  exact List.nodup_iff_count_le_one.1 (once constraint member) ⟨name⟩

/-- Two patterns of one list with one of another list between them, and a role written twice. -/
def overlappingText : String :=
  "constraint \x7burl-patterns \x7b- \"/*\";- \"/a\";- \"/\"\x7d;roles \x7b- A;- A\x7d\x7d;" ++
    "constraint \x7broles \x7b- A\x7d\x7d"

def overlapping : Descriptor where
  constraints := [⟨[.subtree "", .exact "/a", .default], [⟨"A"⟩]⟩, ⟨[], [⟨"A"⟩]⟩]

/-- The same role twice in a constraint, which no text can bring about. -/
def repeating : Descriptor where
  constraints := [⟨[], [⟨"A"⟩, ⟨"A"⟩]⟩]

theorem tables_compile_overlapping :
    let index := compile overlapping {}
    (Descriptor.read overlappingText).result = .ok overlapping ∧
      (index.byRole.positions "A").Pairwise (· < ·) ∧
      0 ∈ index.paths.catchAll ∧ 1 ∉ index.paths.catchAll ∧ "" ∉ index.paths.subtrees ∧
      ((compile repeating {}).byRole.positions "A").count 0 = 2 := by
  intro index
  have accepted : (Descriptor.read overlappingText).result = .ok overlapping := by cbv
  obtain ⟨paths, proper, -, -, rising⟩ := tables_compile overlapping {}
  obtain ⟨-, -, tallies, -, -⟩ := tables_compile repeating {}
  refine ⟨accepted, rising overlappingText accepted "A", ?_, ?_, proper.rooted, ?_⟩
  · exact ((paths .catchAll).mem_iff 0 _ rfl).2 ⟨.default, by decide, Or.inl rfl⟩
  · refine mt ((paths .catchAll).mem_iff 1 _ rfl).1 ?_
    rintro ⟨pattern, member, -⟩
    cases member
  · exact (tallies ⟨"A"⟩).count_eq 0 _ rfl

end ConstraintIndex

end Gatehouse
