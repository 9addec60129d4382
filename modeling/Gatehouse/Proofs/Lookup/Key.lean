import Gatehouse.PathTable
/-!
The keys of the look-up tables. A pattern is filed under one key, and a path asks for every key
that covers it. Main statements: `covers_iff_key_mem`, which says that a pattern covers exactly the
paths that ask for its key, and `candidates_eq_flatMap`, which says that a look-up reads what is
filed under the keys of its path.
-/

namespace Gatehouse

namespace PathTable

/-- What constraints are filed under: one of the tables, and a text within it. -/
inductive Key where
  | exact (path : String)
  | subtree (root : String)
  | extension (suffix : String)
  | catchAll
  | contextRoot
  deriving DecidableEq

def filed (table : PathTable) : Key → List Nat
  | .exact path => table.exact.positions path
  | .subtree root => table.subtrees.positions root
  | .extension suffix => table.extensions.positions suffix
  | .catchAll => table.catchAll
  | .contextRoot => table.contextRoot

def keys (path : String) : List Key :=
  [.catchAll, .exact path] ++ (if path = "/" then [.contextRoot] else []) ++
    (roots path).map .subtree ++ (suffixes path).map .extension

theorem candidates_eq_flatMap (table : PathTable) (path : String) :
    table.candidates path = (keys path).flatMap table.filed := by
  by_cases root : path = "/" <;>
    simp [candidates, keys, filed, root, List.flatMap_append, List.flatMap_map]

theorem mem_find (table : PathTable) (path : String) (id : Nat) :
    id ∈ table.find path ↔ ∃ key ∈ keys path, id ∈ table.filed key := by
  rw [find, Std.TreeSet.mem_ofList, List.contains_iff_mem, candidates_eq_flatMap,
    List.mem_flatMap]

end PathTable

/-- The key that a pattern is filed under. The subtree of the empty root holds every path. -/
def UrlPattern.key : UrlPattern → PathTable.Key
  | exact path => .exact path
  | subtree root => if root = "" then .catchAll else .subtree root
  | extension suffix => .extension suffix
  | default => .catchAll
  | contextRoot => .contextRoot

namespace PathTable

/-! ### Cutting a path at its slashes and dots -/

theorem mem_beforeSlashes {before s : List Char} :
    before ∈ beforeSlashes s ↔ ∃ rest, s = before ++ '/' :: rest := by
  induction s generalizing before with
  | nil => simp [beforeSlashes]
  | cons c s ih =>
    cases before with
    | nil => by_cases slash : c = '/' <;> simp [beforeSlashes, slash]
    | cons b before =>
      have mem : b :: before ∈ beforeSlashes (c :: s) ↔ before ∈ beforeSlashes s ∧ c = b := by
        by_cases slash : c = '/' <;> simp [beforeSlashes, slash]
      rw [mem, ih]
      constructor
      · rintro ⟨⟨rest, rfl⟩, rfl⟩
        exact ⟨rest, rfl⟩
      · rintro ⟨rest, cut⟩
        obtain ⟨same, later⟩ := List.cons.inj cut
        exact ⟨⟨rest, later⟩, same⟩

theorem mem_afterDots {rest s : List Char} :
    rest ∈ afterDots s ↔ ∃ stem, s = stem ++ '.' :: rest := by
  induction s with
  | nil => simp [afterDots]
  | cons c s ih =>
    have shift : (∃ stem, c :: s = stem ++ '.' :: rest) ↔
        (c = '.' ∧ s = rest) ∨ ∃ stem, s = stem ++ '.' :: rest := by
      constructor
      · rintro ⟨_ | ⟨_, stem⟩, cut⟩
        · exact Or.inl (List.cons.inj cut)
        · exact Or.inr ⟨stem, (List.cons.inj cut).2⟩
      · rintro (⟨rfl, rfl⟩ | ⟨stem, rfl⟩)
        · exact ⟨[], rfl⟩
        · exact ⟨c :: stem, rfl⟩
    rw [shift, ← ih, afterDots]
    by_cases dot : c = '.'
    · simp [dot, eq_comm]
    · simp [dot]

/-- A root of a path is what stands before one of its slashes, unless that is empty, or the path
itself. -/
theorem mem_roots {root path : String} :
    root ∈ roots path ↔
      (root ≠ "" ∧ ∃ rest, path.toList = root.toList ++ '/' :: rest) ∨ path = root := by
  simp only [roots, List.mem_append, List.mem_map, List.mem_filter, decide_eq_true_eq,
    List.mem_singleton, mem_beforeSlashes]
  refine or_congr ?_ eq_comm
  constructor
  · rintro ⟨before, ⟨cut, nonempty⟩, rfl⟩
    exact ⟨by simpa using nonempty, by simpa using cut⟩
  · rintro ⟨nonempty, cut⟩
    exact ⟨root.toList, ⟨cut, by simpa using nonempty⟩, String.ofList_toList⟩

theorem mem_suffixes {suffix path : String} :
    suffix ∈ suffixes path ↔
      ∃ stem, UrlPattern.lastSegment path.toList = stem ++ '.' :: suffix.toList := by
  simp only [suffixes, List.mem_map, mem_afterDots]
  constructor
  · rintro ⟨rest, cut, rfl⟩
    simpa using cut
  · intro cut
    exact ⟨suffix.toList, cut, String.ofList_toList⟩

/-! ### Which keys a path asks for -/

theorem exact_mem_keys {path name : String} : .exact name ∈ keys path ↔ name = path := by
  by_cases root : path = "/" <;> simp [keys, root]

theorem subtree_mem_keys {path root : String} : .subtree root ∈ keys path ↔ root ∈ roots path := by
  by_cases root : path = "/" <;> simp [keys, root]

theorem extension_mem_keys {path suffix : String} :
    .extension suffix ∈ keys path ↔ suffix ∈ suffixes path := by
  by_cases root : path = "/" <;> simp [keys, root]

theorem catchAll_mem_keys (path : String) : .catchAll ∈ keys path := by
  simp [keys]

theorem contextRoot_mem_keys {path : String} : .contextRoot ∈ keys path ↔ path = "/" := by
  by_cases root : path = "/" <;> simp [keys, root]

end PathTable

namespace UrlPattern

open PathTable Text

theorem covers_subtree {root path : String} :
    (subtree root).covers path = true ↔
      root = "" ∨ path = root ∨ ∃ rest, path.toList = root.toList ++ '/' :: rest := by
  simp only [covers, Bool.or_eq_true, beq_iff_eq, or_assoc]
  refine or_congr Iff.rfl (or_congr Iff.rfl ?_)
  cases found : afterStart? root.toList path.toList with
  | none =>
    simp only [Bool.false_eq_true, false_iff, not_exists]
    intro rest cut
    rw [afterStart?_eq_some_iff.2 cut] at found
    exact absurd found (by simp)
  | some below =>
    have cut := afterStart?_eq_some_iff.1 found
    rw [cut]
    simp only [List.append_cancel_left_eq, beq_iff_eq]
    cases below with
    | nil => simp
    | cons c below => simp

theorem covers_extension {suffix path : String} :
    (extension suffix).covers path = true ↔
      ∃ stem, lastSegment path.toList = stem ++ '.' :: suffix.toList := by
  simp only [covers]
  cases found : beforeEnd? suffix.toList (lastSegment path.toList) with
  | none =>
    simp only [Bool.false_eq_true, false_iff, not_exists]
    intro stem cut
    have ends : lastSegment path.toList = (stem ++ ['.']) ++ suffix.toList := by simp [cut]
    rw [beforeEnd?_eq_some_iff.2 ends] at found
    exact absurd found (by simp)
  | some front =>
    have cut := beforeEnd?_eq_some_iff.1 found
    simp only [cut, beq_iff_eq, List.getLast?_eq_some_iff]
    refine exists_congr fun stem => ?_
    rw [show stem ++ '.' :: suffix.toList = (stem ++ ['.']) ++ suffix.toList by simp,
      List.append_cancel_right_eq]

theorem covers_iff_key_mem (pattern : UrlPattern) (path : String) :
    pattern.covers path = true ↔ pattern.key ∈ keys path := by
  cases pattern with
  | exact name => rw [key, exact_mem_keys, covers, beq_iff_eq]
  | subtree root =>
    rw [covers_subtree]
    by_cases empty : root = ""
    · simp [key, empty, catchAll_mem_keys]
    · rw [key, if_neg empty, subtree_mem_keys, mem_roots, or_comm (b := path = root)]
      simp [empty]
  | extension suffix => rw [key, covers_extension, extension_mem_keys, mem_suffixes]
  | default => simp [key, covers, catchAll_mem_keys]
  | contextRoot => rw [key, contextRoot_mem_keys, covers, beq_iff_eq]

end UrlPattern

end Gatehouse
