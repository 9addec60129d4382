/-!
Lists of values under keys, in the order in which the keys came. Main statement: `lookup_put`, which
says that putting a value under a key changes what is found under that key and nothing else.
-/

namespace Gatehouse

/-- Values under keys. Only the first one under a key counts. -/
abbrev Keyed (α : Type) := List (String × α)

namespace Keyed

variable {α : Type}

def put (key : String) (value : α) : Keyed α → Keyed α
  | [] => [(key, value)]
  | (k, v) :: rest => if key = k then (key, value) :: rest else (k, v) :: put key value rest

theorem lookup_put (key other : String) (value : α) (entries : Keyed α) :
    List.lookup other (put key value entries) =
      if other = key then some value else List.lookup other entries := by
  have head (k : String) (v : α) (rest : Keyed α) :
      List.lookup other ((k, v) :: rest) =
        if other = k then some v else List.lookup other rest := by
    by_cases h : other = k
    · subst h
      simp
    · have h' : (other == k) = false := by simp [h]
      rw [List.lookup_cons, h', if_neg h]
  induction entries with
  | nil => simp only [put, head, List.lookup_nil]
  | cons entry rest ih =>
    obtain ⟨k, v⟩ := entry
    by_cases same : key = k
    · subst same
      simp only [put, if_true, head]
      split <;> rfl
    · by_cases h : other = k
      · subst h
        simp [put, head, same, Ne.symm same]
      · simp [put, head, same, h, ih]

theorem mem_of_lookup {entries : Keyed α} {key : String} {value : α}
    (found : List.lookup key entries = some value) : (key, value) ∈ entries := by
  obtain ⟨before, after, eq, _⟩ := List.lookup_eq_some_iff.1 found
  rw [eq]
  exact List.mem_append_right before List.mem_cons_self

/-! ### A key that is new -/

section New

variable {entries : Keyed α} {key : String} (new : key ∉ entries.map Prod.fst)
include new

theorem lookup_of_new : List.lookup key entries = none := by
  rw [List.lookup_eq_none_iff]
  intro entry member
  have other : key ≠ entry.1 := by
    intro same
    exact new (same ▸ List.mem_map_of_mem member)
  simpa using other

theorem lookup_append_new (value : α) :
    List.lookup key (entries ++ [(key, value)]) = some value := by
  rw [List.lookup_append, lookup_of_new new]
  simp

theorem put_of_new (value : α) : put key value entries = entries ++ [(key, value)] := by
  induction entries with
  | nil => rfl
  | cons entry rest ih =>
    obtain ⟨other, later⟩ : key ≠ entry.1 ∧ key ∉ rest.map Prod.fst := by
      simpa only [List.map_cons, List.mem_cons, not_or] using new
    rw [put, if_neg other, ih later, List.cons_append]

theorem put_append_new (old value : α) :
    put key value (entries ++ [(key, old)]) = entries ++ [(key, value)] := by
  induction entries with
  | nil => simp [put]
  | cons entry rest ih =>
    obtain ⟨other, later⟩ : key ≠ entry.1 ∧ key ∉ rest.map Prod.fst := by
      simpa only [List.map_cons, List.mem_cons, not_or] using new
    rw [List.cons_append, put, if_neg other, ih later, List.cons_append]

end New

end Keyed

end Gatehouse
