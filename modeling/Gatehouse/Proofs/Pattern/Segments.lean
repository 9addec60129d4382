import Gatehouse.Proofs.Lookup.Key
/-!
What patterns cover, segment by segment. Deciding whether a path is covered compares characters and
looks at the one beside them; here a path is cut at its slashes, and a name at its dots. Main
statement: `covers_iff_segments`.
-/

namespace Gatehouse

/-! ### Cutting at a separator -/

namespace Text

section

variable {α : Type} {sep : α}

theorem intercalate_append {front back : List (List α)} (first : front ≠ []) (last : back ≠ []) :
    [sep].intercalate (front ++ back) =
      [sep].intercalate front ++ sep :: [sep].intercalate back := by
  induction front with
  | nil => exact absurd rfl first
  | cons part front ih =>
    cases front with
    | nil =>
      obtain ⟨other, back, rfl⟩ := List.exists_cons_of_ne_nil last
      simp
    | cons next front => simpa using ih (by simp)

variable [DecidableEq α] {s t : List α}

/-- A text whose parts begin with those of another one goes on behind a separator, if at all. -/
theorem splitOn_prefix_iff :
    s.splitOn sep <+: t.splitOn sep ↔ t = s ∨ ∃ rest, t = s ++ sep :: rest := by
  constructor
  · rintro ⟨more, cut⟩
    have joined : [sep].intercalate (s.splitOn sep ++ more) = t := by
      rw [cut, List.intercalate_splitOn]
    by_cases whole : more = []
    · left
      rw [← joined, whole, List.append_nil, List.intercalate_splitOn]
    · right
      refine ⟨[sep].intercalate more, ?_⟩
      rw [← joined, intercalate_append (List.splitOn_ne_nil _ _) whole, List.intercalate_splitOn]
  · rintro (rfl | ⟨rest, rfl⟩)
    · exact List.prefix_rfl
    · exact ⟨rest.splitOn sep, (List.splitOn_append_cons_self s rest).symm⟩

/-- Not all of a list, but a final part of it. -/
def IsProperEnd {β : Type} (final all : List β) : Prop := final <:+ all ∧ final ≠ all

instance {β : Type} [DecidableEq β] (final all : List β) : Decidable (IsProperEnd final all) :=
  inferInstanceAs (Decidable (_ ∧ _))

theorem IsProperEnd.trans {β : Type} {final middle all : List β} (inner : IsProperEnd final middle)
    (outer : IsProperEnd middle all) : IsProperEnd final all := by
  refine ⟨inner.1.trans outer.1, ?_⟩
  rintro rfl
  exact inner.2 (inner.1.eq_of_length_le outer.1.length_le)

theorem isProperEnd_splitOn_iff :
    IsProperEnd (s.splitOn sep) (t.splitOn sep) ↔ ∃ stem, t = stem ++ sep :: s := by
  constructor
  · rintro ⟨⟨front, cut⟩, proper⟩
    have first : front ≠ [] := by
      rintro rfl
      exact proper cut
    have joined : [sep].intercalate (front ++ s.splitOn sep) = t := by
      rw [cut, List.intercalate_splitOn]
    refine ⟨[sep].intercalate front, ?_⟩
    rw [← joined, intercalate_append first (List.splitOn_ne_nil _ _), List.intercalate_splitOn]
  · rintro ⟨stem, rfl⟩
    rw [List.splitOn_append_cons_self]
    refine ⟨List.suffix_append _ _, fun same => List.splitOn_ne_nil sep stem ?_⟩
    exact List.self_eq_append_left.1 same

end

end Text

namespace UrlPattern

open Text

/-! ### Segments of a path and parts of a name -/

def segments (path : String) : List (List Char) := path.toList.splitOn '/'

def parts (name : List Char) : List (List Char) := name.splitOn '.'

theorem segments_ne_nil (path : String) : segments path ≠ [] := List.splitOn_ne_nil _ _

/-- What stands behind the last slash of a path, or all of it. -/
theorem lastSegment_cut (path : List Char) :
    '/' ∉ lastSegment path ∧
      (path = lastSegment path ∨ ∃ before, path = before ++ '/' :: lastSegment path) := by
  have noSlash : '/' ∉ lastSegment path := by
    rw [lastSegment, List.mem_reverse]
    intro slash
    simpa using List.all_eq_true.1 List.all_takeWhile _ slash
  have cut : path = (path.reverse.dropWhile (· != '/')).reverse ++ lastSegment path := by
    rw [lastSegment, ← List.reverse_append, List.takeWhile_append_dropWhile, List.reverse_reverse]
  refine ⟨noSlash, ?_⟩
  cases stopped : path.reverse.dropWhile (· != '/') with
  | nil =>
    left
    simpa [stopped] using cut
  | cons c before =>
    have slash : c = '/' := by
      have found := List.head?_dropWhile_not (· != '/') path.reverse
      simpa [stopped] using found
    right
    refine ⟨before.reverse, ?_⟩
    simpa [stopped, slash] using cut

theorem getLast_segments (path : String) :
    (segments path).getLast (segments_ne_nil path) = lastSegment path.toList := by
  rw [List.getLast_eq_iff_getLast?_eq_some]
  obtain ⟨noSlash, whole | ⟨before, cut⟩⟩ := lastSegment_cut path.toList
  · rw [← whole] at noSlash ⊢
    rw [segments, List.splitOn_eq_singleton noSlash, List.getLast?_singleton]
  · have split : segments path = before.splitOn '/' ++ [lastSegment path.toList] := by
      rw [← List.splitOn_eq_singleton noSlash, ← List.splitOn_append_cons_self, ← cut, segments]
    rw [split, List.getLast?_append, List.getLast?_singleton, Option.some_or]

/-! ### Coverage -/

theorem covers_subtree_iff_segments {root path : String} (named : root ≠ "") :
    (subtree root).covers path = true ↔ segments root <+: segments path := by
  rw [covers_subtree, segments, segments, splitOn_prefix_iff, String.toList_inj]
  exact or_iff_right named

theorem covers_extension_iff_parts {suffix path : String} :
    (extension suffix).covers path = true ↔
      IsProperEnd (parts suffix.toList)
        (parts ((segments path).getLast (segments_ne_nil path))) := by
  rw [getLast_segments, parts, parts, isProperEnd_splitOn_iff, covers_extension]

theorem covers_subtree_trans {root middle path : String} (named : middle ≠ "")
    (outer : (subtree root).covers middle = true) (inner : (subtree middle).covers path = true) :
    (subtree root).covers path = true := by
  by_cases all : root = ""
  · exact covers_subtree.2 (Or.inl all)
  · rw [covers_subtree_iff_segments all] at outer ⊢
    rw [covers_subtree_iff_segments named] at inner
    exact outer.trans inner

theorem covers_extension_of_isProperEnd {suffix shorter path : String}
    (covered : (extension suffix).covers path = true)
    (ends : IsProperEnd (parts shorter.toList) (parts suffix.toList)) :
    (extension shorter).covers path = true := by
  rw [covers_extension_iff_parts] at covered ⊢
  exact ends.trans covered

/-- Patterns cover whole segments. The subtree of a root covers the paths whose segments begin with
those of the root, so coverage is transitive. An extension covers the paths whose last segment has
its parts at the end, behind others, so a shorter extension covers what a longer one covers. -/
theorem covers_iff_segments :
    (∀ path, (subtree "").covers path = true) ∧
      (∀ root path, root ≠ "" →
        ((subtree root).covers path = true ↔ segments root <+: segments path)) ∧
      (∀ root middle path, middle ≠ "" → (subtree root).covers middle = true →
        (subtree middle).covers path = true → (subtree root).covers path = true) ∧
      (∀ suffix path, (extension suffix).covers path = true ↔
        IsProperEnd (parts suffix.toList)
          (parts ((segments path).getLast (segments_ne_nil path)))) ∧
      ∀ suffix shorter path, (extension suffix).covers path = true →
        IsProperEnd (parts shorter.toList) (parts suffix.toList) →
          (extension shorter).covers path = true :=
  ⟨fun _ => covers_subtree.2 (Or.inl rfl), fun _ _ => covers_subtree_iff_segments,
    fun _ _ _ => covers_subtree_trans, fun _ _ => covers_extension_iff_parts,
    fun _ _ _ => covers_extension_of_isProperEnd⟩

/-- An archive below two roots that goes by two extensions. A neighbour whose name only begins alike
is not below the root. -/
theorem covers_iff_segments_archive :
    (subtree "/srv").covers "/srv-old" = false ∧
      (subtree "/srv").covers "/srv/app" = true ∧
      (subtree "/srv").covers "/srv/app/site.tar.gz" = true ∧
      (extension "tar.gz").covers "/srv/app/site.tar.gz" = true ∧
      (extension "gz").covers "/srv/app/site.tar.gz" = true := by
  obtain ⟨_, below, trans, ends, shorter⟩ := covers_iff_segments
  have neighbour : ¬ segments "/srv" <+: segments "/srv-old" := by decide +kernel
  have outer : (subtree "/srv").covers "/srv/app" = true :=
    (below "/srv" "/srv/app" (by decide)).2 (by decide +kernel)
  have inner : (subtree "/srv/app").covers "/srv/app/site.tar.gz" = true :=
    (below "/srv/app" "/srv/app/site.tar.gz" (by decide)).2 (by decide +kernel)
  have archive : (extension "tar.gz").covers "/srv/app/site.tar.gz" = true :=
    (ends "tar.gz" "/srv/app/site.tar.gz").2 (by decide +kernel)
  refine ⟨?_, outer, trans "/srv" "/srv/app" _ (by decide) outer inner, archive, ?_⟩
  · rw [← below "/srv" "/srv-old" (by decide)] at neighbour
    exact Bool.eq_false_iff.2 neighbour
  · exact shorter "tar.gz" "gz" _ archive (by decide +kernel)

end UrlPattern

end Gatehouse
