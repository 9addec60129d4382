import Gatehouse.Proofs.Pattern.Written
import Gatehouse.Proofs.Text.Trim
/-!
Which patterns are the ones that their written forms are read as. Main statement:
`parse_display_iff`, which names them kind by kind. `hasShape_ofTrimmed` and `ofTrimmed_display` say
that reading and writing are inverse to each other once the blanks are off.
-/

namespace Gatehouse.UrlPattern

open Text

/-! ### Shapes -/

/-- A root as it stands before the final `/*`. -/
def IsSubtreeRoot (root : List Char) : Prop := root = [] ∨ root.head? = some '/'

/-- An extension as it stands after the first `*.`. -/
def IsExtension (suffix : List Char) : Prop := suffix ≠ [] ∧ '/' ∉ suffix

def IsSubtreeText (s : List Char) : Prop := ∃ root, s = root ++ ['/', '*'] ∧ IsSubtreeRoot root

def IsExtensionText (s : List Char) : Prop := ∃ suffix, s = ['*', '.'] ++ suffix ∧ IsExtension suffix

/-- A text that is read as none of the other kinds. -/
def IsExactText (s : List Char) : Prop :=
  s ≠ [] ∧ s ≠ ['/'] ∧ ¬ IsSubtreeText s ∧ ¬ IsExtensionText s

/-- What reading promises of a pattern, apart from what becomes of blanks. -/
def HasShape : UrlPattern → Prop
  | exact path => IsExactText path.toList
  | subtree root => IsSubtreeRoot root.toList
  | extension suffix => IsExtension suffix.toList
  | default => True
  | contextRoot => True

/-! ### How each text is read -/

theorem ofTrimmed_subtree {root : List Char} (begins : IsSubtreeRoot root) :
    ofTrimmed (root ++ ['/', '*']) = subtree (String.ofList root) := by
  have cut : beforeEnd? ['/', '*'] (root ++ ['/', '*']) = some root :=
    beforeEnd?_eq_some_iff.2 rfl
  have long : root ++ ['/', '*'] ≠ ['/'] := by
    intro short
    simpa using congrArg List.length short
  simp only [ofTrimmed, cut]
  rw [if_neg (by simp), if_neg long]
  exact if_pos begins

theorem ofTrimmed_other {s : List Char} (visible : s ≠ []) (longer : s ≠ ['/'])
    (other : ¬ IsSubtreeText s) : ofTrimmed s = ofTrimmed.other s := by
  rw [ofTrimmed, if_neg visible, if_neg longer]
  split
  · next root cut =>
    rw [if_neg]
    exact fun begins => other ⟨root, beforeEnd?_eq_some_iff.1 cut, begins⟩
  · rfl

theorem other_extension {suffix : List Char} (proper : IsExtension suffix) :
    ofTrimmed.other (['*', '.'] ++ suffix) = extension (String.ofList suffix) := by
  have cut : afterStart? ['*', '.'] (['*', '.'] ++ suffix) = some suffix :=
    afterStart?_eq_some_iff.2 rfl
  simp only [ofTrimmed.other, cut]
  exact if_pos proper

theorem other_exact {s : List Char} (other : ¬ IsExtensionText s) :
    ofTrimmed.other s = exact (String.ofList s) := by
  unfold ofTrimmed.other
  split
  · next suffix cut =>
    rw [if_neg]
    exact fun proper => other ⟨suffix, afterStart?_eq_some_iff.1 cut, proper⟩
  · rfl

/-- The last two tests of the reader exclude each other. -/
theorem IsExtensionText.not_subtree {s : List Char} (extension : IsExtensionText s) :
    ¬ IsSubtreeText s := by
  obtain ⟨suffix, rfl, _, noSlash⟩ := extension
  rintro ⟨root, same, _⟩
  have slash : '/' ∈ ['*', '.'] ++ suffix := by rw [same]; simp
  simp [noSlash] at slash

theorem ofTrimmed_extension {suffix : List Char} (proper : IsExtension suffix) :
    ofTrimmed (['*', '.'] ++ suffix) = extension (String.ofList suffix) := by
  have text : IsExtensionText (['*', '.'] ++ suffix) := ⟨suffix, rfl, proper⟩
  rw [ofTrimmed_other (by simp) (by simp) text.not_subtree, other_extension proper]

theorem ofTrimmed_exact {s : List Char} (text : IsExactText s) :
    ofTrimmed s = exact (String.ofList s) := by
  obtain ⟨visible, longer, notSubtree, notExtension⟩ := text
  rw [ofTrimmed_other visible longer notSubtree, other_exact notExtension]

/-! ### Reading and writing without blanks -/

theorem hasShape_ofTrimmed (s : List Char) : (ofTrimmed s).HasShape := by
  by_cases nothing : s = []
  · subst nothing
    trivial
  by_cases slash : s = ['/']
  · subst slash
    trivial
  by_cases subtree : IsSubtreeText s
  · obtain ⟨root, rfl, begins⟩ := subtree
    rw [ofTrimmed_subtree begins]
    simpa [HasShape] using begins
  by_cases extension : IsExtensionText s
  · obtain ⟨suffix, rfl, proper⟩ := extension
    rw [ofTrimmed_extension proper]
    simpa [HasShape] using proper
  · have text : IsExactText s := ⟨nothing, slash, subtree, extension⟩
    rw [ofTrimmed_exact text]
    simpa [HasShape] using text

theorem ofTrimmed_display {pattern : UrlPattern} (shape : pattern.HasShape) :
    ofTrimmed pattern.display.toList = pattern := by
  cases pattern with
  | exact path => rw [display, ofTrimmed_exact shape, String.ofList_toList]
  | subtree root =>
    rw [display, String.toList_append]
    exact (ofTrimmed_subtree shape).trans (by rw [String.ofList_toList])
  | extension suffix =>
    rw [display, String.toList_append]
    exact (ofTrimmed_extension shape).trans (by rw [String.ofList_toList])
  | default => rfl
  | contextRoot => rfl

/-! ### Blanks -/

theorem isBare_subtree {root : List Char} (begins : IsSubtreeRoot root) :
    IsBare (root ++ ['/', '*']) := by
  have first : (root ++ ['/', '*']).head? = some '/' := by
    obtain rfl | slash := begins
    · rfl
    · simp [slash]
  have last : (root ++ ['/', '*']).getLast? = some '*' := by simp
  rw [IsBare, first, last]
  exact ⟨by simp [isBlank], by simp [isBlank]⟩

theorem isBare_extension_iff {suffix : List Char} (visible : suffix ≠ []) :
    IsBare (['*', '.'] ++ suffix) ↔ ∀ c ∈ suffix.getLast?, isBlank c = false := by
  have last : (['*', '.'] ++ suffix).getLast? = suffix.getLast? := by
    rw [List.getLast?_append, List.getLast?_eq_some_getLast visible, Option.some_or]
  rw [IsBare, last]
  exact and_iff_right (by simp [isBlank])

/-- The patterns that are read from some text, kind by kind. -/
def IsReadable : UrlPattern → Prop
  | exact path => IsExactText path.toList ∧ strip path = path
  | subtree root => IsSubtreeRoot root.toList
  | extension suffix =>
    IsExtension suffix.toList ∧ ∀ c ∈ suffix.toList.getLast?, isBlank c = false
  | default => True
  | contextRoot => True

theorem isReadable_iff {pattern : UrlPattern} :
    pattern.IsReadable ↔ pattern.HasShape ∧ IsBare pattern.display.toList := by
  cases pattern with
  | exact path => rw [IsReadable, strip_eq_self_iff, HasShape, display]
  | subtree root =>
    rw [display, String.toList_append]
    exact (and_iff_left_of_imp isBare_subtree).symm
  | extension suffix =>
    rw [display, String.toList_append]
    exact and_congr_right fun proper => (isBare_extension_iff proper.1).symm
  | default => simp [IsReadable, HasShape, IsBare, display, isBlank]
  | contextRoot => simp [IsReadable, HasShape, IsBare, display]

theorem isReadable_parse (raw : String) : (parse raw).IsReadable := by
  rw [isReadable_iff]
  refine ⟨hasShape_ofTrimmed _, ?_⟩
  rw [parse, display_ofTrimmed]
  exact isBare_trim _

theorem IsReadable.parse_display {pattern : UrlPattern} (readable : pattern.IsReadable) :
    parse pattern.display = pattern := by
  obtain ⟨shape, bare⟩ := isReadable_iff.1 readable
  rw [parse, trim_eq_self_iff.2 bare, ofTrimmed_display shape]

/-- Reading loses nothing of a text but the blanks at both ends, and the written form of a pattern is
read as that pattern exactly if it is one of those that are read from some text. -/
theorem parse_display_iff :
    (∀ raw, (parse raw).display = strip raw ∧ parse (parse raw).display = parse raw) ∧
      ∀ pattern, parse pattern.display = pattern ↔ pattern.IsReadable := by
  constructor
  · intro raw
    exact ⟨display_parse raw, (isReadable_parse raw).parse_display⟩
  · intro pattern
    constructor
    · intro canonical
      rw [← canonical]
      exact isReadable_parse _
    · exact IsReadable.parse_display

end Gatehouse.UrlPattern
