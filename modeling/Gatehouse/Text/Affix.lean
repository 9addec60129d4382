/-!
Taking a known beginning or ending off a list, or cutting the list where a known part first
occurs. Main statements: `afterStart?_eq_some_iff` and `beforeEnd?_eq_some_iff`, which say that the
answer is exactly what is left, and `eq_append_of_cutAt?`, which says that a cut loses nothing.
`span_append` finds the end of a run of members that are alike.
-/

namespace Gatehouse.Text

variable {α : Type} [DecidableEq α]

def afterStart? : (start s : List α) → Option (List α)
  | [], s => some s
  | _ :: _, [] => none
  | a :: start, b :: s => if a = b then afterStart? start s else none

def beforeEnd? (ending s : List α) : Option (List α) :=
  (afterStart? ending.reverse s.reverse).map List.reverse

/-- What stands before the first place where `stop` begins, and what follows `stop` there. -/
def cutAt? (stop : List α) : List α → Option (List α × List α)
  | [] => none
  | a :: s =>
    match afterStart? stop (a :: s) with
    | some rest => some ([], rest)
    | none => (cutAt? stop s).map fun (before, rest) => (a :: before, rest)

theorem afterStart?_eq_some_iff {start s rest : List α} :
    afterStart? start s = some rest ↔ s = start ++ rest := by
  fun_induction afterStart? start s with
  | case1 s => simp
  | case2 => simp
  | case3 start b s ih => simp [ih]
  | case4 a start b s ne =>
    simp only [List.cons_append, List.cons.injEq, reduceCtorEq, false_iff, not_and]
    exact fun h => absurd h.symm ne

theorem beforeEnd?_eq_some_iff {ending s rest : List α} :
    beforeEnd? ending s = some rest ↔ s = rest ++ ending := by
  simp only [beforeEnd?, Option.map_eq_some_iff, afterStart?_eq_some_iff]
  constructor
  · rintro ⟨r, h, rfl⟩
    simpa using congrArg List.reverse h
  · rintro rfl
    exact ⟨rest.reverse, by simp⟩

theorem eq_append_of_cutAt? {stop s before rest : List α}
    (h : cutAt? stop s = some (before, rest)) : s = before ++ stop ++ rest := by
  induction s generalizing before with
  | nil => simp [cutAt?] at h
  | cons a s ih =>
    unfold cutAt? at h
    split at h
    · next found =>
      obtain ⟨rfl, rfl⟩ := by simpa using h
      simpa using afterStart?_eq_some_iff.1 found
    · obtain ⟨⟨b, r⟩, found, eq⟩ := Option.map_eq_some_iff.1 h
      obtain ⟨rfl, rfl⟩ := by simpa using eq
      simp [ih found]

theorem span_append {β : Type} {p : β → Bool} {s : List β} (inside : ∀ b ∈ s, p b = true)
    (rest : List β) (stop : rest.head?.all (!p ·) = true) :
    (s ++ rest).takeWhile p = s ∧ (s ++ rest).dropWhile p = rest := by
  rw [List.takeWhile_append_of_pos inside, List.dropWhile_append_of_pos inside]
  cases rest with
  | nil => simp
  | cons b rest =>
    have outside : p b = false := by simpa using stop
    simp [outside]

end Gatehouse.Text
