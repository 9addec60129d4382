import Gatehouse.Text.Blank
/-!
What trimming takes away and what it leaves. Main statements: `exists_eq_append_trim`, which says
that only blanks are lost, `isBare_trim`, which says that no more can be, and `trim_eq_self_iff`.
-/

namespace Gatehouse.Text

/-- No blank at either end. -/
def IsBare (s : List Char) : Prop :=
  (∀ c ∈ s.head?, isBlank c = false) ∧ ∀ c ∈ s.getLast?, isBlank c = false

theorem trimEnd_eq (s : List Char) : trimEnd s = (trimStart s.reverse).reverse := rfl

theorem exists_eq_append_trimStart (s : List Char) :
    ∃ before, (∀ c ∈ before, isBlank c = true) ∧ s = before ++ trimStart s :=
  ⟨s.takeWhile isBlank, List.all_eq_true.1 List.all_takeWhile,
    List.takeWhile_append_dropWhile.symm⟩

theorem exists_eq_append_trimEnd (s : List Char) :
    ∃ after, (∀ c ∈ after, isBlank c = true) ∧ s = trimEnd s ++ after := by
  obtain ⟨before, blank, cut⟩ := exists_eq_append_trimStart s.reverse
  refine ⟨before.reverse, fun c member => blank c (List.mem_reverse.1 member), ?_⟩
  rw [trimEnd_eq, ← List.reverse_append, ← cut, List.reverse_reverse]

theorem exists_eq_append_trim (s : List Char) :
    ∃ before after, (∀ c ∈ before, isBlank c = true) ∧ (∀ c ∈ after, isBlank c = true) ∧
      s = before ++ trim s ++ after := by
  obtain ⟨before, blankBefore, cut⟩ := exists_eq_append_trimStart s
  obtain ⟨after, blankAfter, kept⟩ := exists_eq_append_trimEnd (trimStart s)
  refine ⟨before, after, blankBefore, blankAfter, ?_⟩
  rw [List.append_assoc, trim, ← kept, ← cut]

theorem head?_trimStart (s : List Char) : ∀ c ∈ (trimStart s).head?, isBlank c = false := by
  intro c begins
  have visible := List.head?_dropWhile_not isBlank s
  rwa [← trimStart, Option.mem_def.1 begins] at visible

theorem getLast?_trimEnd (s : List Char) : ∀ c ∈ (trimEnd s).getLast?, isBlank c = false := by
  rw [trimEnd_eq, List.getLast?_reverse]
  exact head?_trimStart _

theorem trimStart_eq_self {s : List Char} (visible : ∀ c ∈ s.head?, isBlank c = false) :
    trimStart s = s := by
  cases s with
  | nil => rfl
  | cons c rest => simp [trimStart, visible c rfl]

theorem trimEnd_eq_self {s : List Char} (visible : ∀ c ∈ s.getLast?, isBlank c = false) :
    trimEnd s = s := by
  rw [trimEnd_eq, trimStart_eq_self, List.reverse_reverse]
  rwa [List.head?_reverse]

theorem isBare_trim (s : List Char) : IsBare (trim s) := by
  refine ⟨?_, getLast?_trimEnd _⟩
  intro c begins
  obtain ⟨rest, same⟩ := List.head?_eq_some_iff.1 begins
  -- Trimming the end keeps the first character, so it is the one that was found from the start.
  obtain ⟨after, _, kept⟩ := exists_eq_append_trimEnd (trimStart s)
  rw [← trim, same] at kept
  exact head?_trimStart s c (by rw [kept]; rfl)

theorem trim_eq_self_iff {s : List Char} : trim s = s ↔ IsBare s := by
  constructor
  · intro same
    rw [← same]
    exact isBare_trim s
  · rintro ⟨start, ending⟩
    rw [trim, trimStart_eq_self start, trimEnd_eq_self ending]

theorem trim_trim (s : List Char) : trim (trim s) = trim s :=
  trim_eq_self_iff.2 (isBare_trim s)

theorem trim_eq_nil_iff {s : List Char} : trim s = [] ↔ ∀ c ∈ s, isBlank c = true := by
  obtain ⟨before, after, blankBefore, blankAfter, cut⟩ := exists_eq_append_trim s
  constructor
  · intro nothing
    rw [cut, nothing, List.append_nil]
    exact List.forall_mem_append.2 ⟨blankBefore, blankAfter⟩
  · intro blank
    cases kept : trim s with
    | nil => rfl
    | cons c rest =>
      have visible : isBlank c = false := (isBare_trim s).1 c (by rw [kept]; rfl)
      have member : c ∈ s := by rw [cut, kept]; simp
      rw [blank c member] at visible
      cases visible

theorem strip_eq_self_iff {s : String} : strip s = s ↔ IsBare s.toList := by
  rw [← trim_eq_self_iff, ← toList_strip, String.toList_inj]

theorem strip_eq_empty_iff {s : String} : strip s = "" ↔ ∀ c ∈ s.toList, isBlank c = true := by
  rw [← trim_eq_nil_iff, ← toList_strip, String.toList_eq_nil_iff]

end Gatehouse.Text
