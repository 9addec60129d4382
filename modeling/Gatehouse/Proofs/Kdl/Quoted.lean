import Gatehouse.Kdl.Printer
/-!
Strings in quotes, written and read back. Main statement: `quoted?_escape`, which says that every
text comes back whatever characters it has.
-/

namespace Gatehouse

namespace Kdl

open Text

theorem codePoint?_toDigits (c : Char) : codePoint? (Nat.toDigits 16 c.toNat) = some c := by
  have valid : c.toNat.isValidChar := c.valid
  have bounded : c.toNat < 16 ^ 6 := by
    have below : c.toNat < 0x110000 := by
      rcases valid with low | high <;> omega
    omega
  have short : (Nat.toDigits 16 c.toNat).length ≤ 6 :=
    (Nat.length_toDigits_le_iff (by decide) (by decide)).2 bounded
  simp only [codePoint?, short, if_true, numeral?_toDigits (show 1 < 16 by decide) (by decide),
    Option.bind_some, valid, Char.ofNat_toNat]

/-- A character of a written text as it is read: plain if it stands for itself. -/
def Glyph.written (c : Char) : Glyph := ⟨c, isOrdinary c⟩

variable {stop rest : List Char}

theorem glyphs?_digits {read digits : List Char} (inside : '}' ∉ digits) :
    glyphs? stop (.digits read) (digits ++ '}' :: rest) =
      (codePoint? (read.reverse ++ digits)).bind fun char =>
        (glyphs? stop .plain rest).map fun (glyphs, rest) => (⟨char, false⟩ :: glyphs, rest) := by
  induction digits generalizing read with
  | nil =>
    simp only [List.nil_append, List.append_nil, glyphs?, Option.map_eq_bind, if_true]
    rfl
  | cons c digits ih =>
    obtain ⟨here, later⟩ : '}' ≠ c ∧ '}' ∉ digits := by simpa using inside
    rw [List.cons_append, glyphs?, if_neg here.symm, ih later]
    simp

theorem isOrdinary_iff {c : Char} :
    isOrdinary c = true ↔ 0x20 ≤ c.toNat ∧ c.toNat ≤ 0x7E ∧ c ≠ '"' ∧ c ≠ '\\' := by
  simp [isOrdinary, and_assoc]

theorem isDisallowed_of_isOrdinary {c : Char} (ordinary : isOrdinary c = true) :
    isDisallowed c = false := by
  obtain ⟨low, high, _⟩ := isOrdinary_iff.1 ordinary
  simp only [isDisallowed, Bool.or_eq_false_iff, Bool.and_eq_false_iff, beq_eq_false_iff_ne,
    decide_eq_false_iff_not]
  omega

theorem isNewline_of_isOrdinary {c : Char} (ordinary : isOrdinary c = true) :
    isNewline c = false := by
  obtain ⟨low, high, _⟩ := isOrdinary_iff.1 ordinary
  simp only [isNewline, Bool.or_eq_false_iff, Bool.and_eq_false_iff, beq_eq_false_iff_ne,
    decide_eq_false_iff_not]
  omega

theorem glyphs?_escape (c : Char) (s : List Char) :
    glyphs? ['"'] .plain (escape c ++ s) =
      (glyphs? ['"'] .plain s).map fun (glyphs, rest) => (Glyph.written c :: glyphs, rest) := by
  by_cases ordinary : isOrdinary c = true
  · obtain ⟨_, _, quote, backslash⟩ := isOrdinary_iff.1 ordinary
    rw [escape, if_pos ordinary, List.singleton_append, Glyph.written, ordinary]
    simp only [glyphs?, afterStart?, quote.symm, backslash, isDisallowed_of_isOrdinary ordinary,
      Option.map_eq_bind, if_false]
    rfl
  · have inside : '}' ∉ Nat.toDigits 16 c.toNat := by
      intro member
      have read := numeralFrom?_toDigits (show 1 < 16 by decide) (by decide) c.toNat
      exact absurd (isDigit_of_numeralFrom? read _ member) (by decide)
    simp only [escape, if_neg ordinary, List.append_assoc, List.cons_append, List.nil_append]
    calc glyphs? ['"'] .plain ('\\' :: 'u' :: '{' :: (Nat.toDigits 16 c.toNat ++ '}' :: s))
        = glyphs? ['"'] (.digits []) (Nat.toDigits 16 c.toNat ++ '}' :: s) := by
          simp [glyphs?, afterStart?]
      _ = _ := by
          rw [glyphs?_digits inside, List.reverse_nil, List.nil_append, codePoint?_toDigits]
          simp [Glyph.written, ordinary]

theorem glyphs?_flatMap_escape (s rest : List Char) :
    glyphs? ['"'] .plain (s.flatMap escape ++ '"' :: rest) =
      some (s.map Glyph.written, rest) := by
  induction s with
  | nil => simp [glyphs?, afterStart?]
  | cons c s ih => rw [List.flatMap_cons, List.append_assoc, glyphs?_escape, ih]; rfl

theorem oneLine?_written (s : List Char) : oneLine? (s.map Glyph.written) = some s := by
  have oneLine : (s.map Glyph.written).any Glyph.endsLine = false := by
    rw [List.any_map, List.any_eq_false]
    intro c _
    cases ordinary : isOrdinary c with
    | true => simp [Glyph.endsLine, Glyph.written, isNewline_of_isOrdinary ordinary]
    | false => simp [Glyph.endsLine, Glyph.written, ordinary]
  rw [oneLine?, oneLine, if_neg (by decide), List.map_map]
  exact congrArg some (List.map_id s)

/-- A text in quotes is read back. The next character must not be a quote, which after an empty text
would begin a text over several lines. -/
theorem quoted?_escape (s : List Char) (apart : rest.head? ≠ some '"') :
    quoted? (s.flatMap escape ++ '"' :: rest) = some (s, rest) := by
  have single : afterStart? ['"', '"'] (s.flatMap escape ++ '"' :: rest) = none := by
    rw [Option.eq_none_iff_forall_ne_some]
    intro later cut
    have begins := afterStart?_eq_some_iff.1 cut
    cases s with
    | nil =>
      apply apart
      simp_all
    | cons c s =>
      have quote := congrArg List.head? begins
      by_cases ordinary : isOrdinary c = true
      · obtain ⟨_, _, other, _⟩ := isOrdinary_iff.1 ordinary
        simp [escape, ordinary, other] at quote
      · simp [escape, ordinary] at quote
  simp only [quoted?, single, glyphs?_flatMap_escape, Option.bind_eq_bind, Option.bind_some,
    oneLine?_written, Option.pure_def]

end Kdl

end Gatehouse
