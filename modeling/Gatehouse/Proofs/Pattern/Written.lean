import Gatehouse.Proofs.Text.Trim
import Gatehouse.UrlPattern
/-!
Patterns and their written forms. Main statement: `display_parse`, which says that reading a pattern
loses nothing of its text but the blanks at both ends.
-/

namespace Gatehouse.UrlPattern

open Text

theorem display_other (s : List Char) : (ofTrimmed.other s).display.toList = s := by
  unfold ofTrimmed.other
  split
  · next suffix cut =>
    obtain rfl := afterStart?_eq_some_iff.1 cut
    split <;> simp [display]
  · simp [display]

theorem display_ofTrimmed (s : List Char) : (ofTrimmed s).display.toList = s := by
  unfold ofTrimmed
  split
  · next blank => simp [display, blank]
  · split
    · next slash => simp [display, slash]
    · split
      · next root cut =>
        obtain rfl := beforeEnd?_eq_some_iff.1 cut
        split
        · simp [display]
        · exact display_other _
      · exact display_other s

theorem display_parse (raw : String) : (parse raw).display = strip raw := by
  rw [← String.toList_inj, parse, display_ofTrimmed, toList_strip]

theorem parse_strip (raw : String) : parse (strip raw) = parse raw := by
  rw [parse, toList_strip, trim_trim, parse]

/-- The pattern is the one that its written form is read as. -/
def IsCanonical (pattern : UrlPattern) : Prop := parse pattern.display = pattern

instance (pattern : UrlPattern) : Decidable pattern.IsCanonical :=
  inferInstanceAs (Decidable (_ = _))

theorem IsCanonical.strip_display {pattern : UrlPattern} (canonical : pattern.IsCanonical) :
    strip pattern.display = pattern.display := by
  rw [← display_parse, canonical]

theorem IsCanonical.display_ne_empty {pattern : UrlPattern} (canonical : pattern.IsCanonical)
    (named : pattern ≠ contextRoot) : pattern.display ≠ "" := by
  intro empty
  apply named
  calc pattern = parse pattern.display := canonical.symm
    _ = contextRoot := by rw [empty]; rfl

theorem map_parse_display {patterns : List UrlPattern}
    (canonical : ∀ pattern ∈ patterns, pattern.IsCanonical) :
    (patterns.map display).map parse = patterns := by
  rw [List.map_map]
  exact (List.map_congr_left canonical).trans (List.map_id patterns)

end Gatehouse.UrlPattern
