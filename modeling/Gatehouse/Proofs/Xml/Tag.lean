import Gatehouse.Xml.Lexeme
/-!
Tags, written and read back. Main statements: `markup?_opening` and `markup?_closing`.
-/

namespace Gatehouse.Xml

open Text

/-! ### Names -/

/-- A name without a colon. -/
def IsSimpleName (name : List Char) : Prop :=
  name.head?.any isNameStart = true ∧ name.all isNameCharacter = true ∧ ':' ∉ name

instance (name : List Char) : Decidable (IsSimpleName name) :=
  inferInstanceAs (Decidable (_ ∧ _))

theorem IsSimpleName.begins {name : List Char} (simple : IsSimpleName name) :
    ∃ c s, name = c :: s ∧ isNameStart c = true := by
  cases name with
  | nil => cases simple.1
  | cons c s => exact ⟨c, s, rfl, by simpa using simple.1⟩

theorem IsSimpleName.no_colon {name : List Char} (simple : IsSimpleName name) :
    ∀ c ∈ name, (c != ':') = true := by
  intro c member
  simpa using fun same : c = ':' => simple.2.2 (same ▸ member)

namespace QName

def write (name : QName) : List Char :=
  if name.tag = [] then name.name else name.tag ++ ':' :: name.name

def IsWritable (name : QName) : Prop :=
  (name.tag = [] ∨ IsSimpleName name.tag) ∧ IsSimpleName name.name

variable {name : QName}

theorem IsWritable.begins (writable : name.IsWritable) :
    ∃ c s, name.write = c :: s ∧ isNameStart c = true := by
  obtain ⟨tag, simple⟩ := writable
  unfold write
  split
  · exact simple.begins
  · next tagged =>
    obtain ⟨c, s, same, start⟩ := (tag.resolve_left tagged).begins
    exact ⟨c, s ++ ':' :: name.name, by rw [same]; rfl, start⟩

theorem IsWritable.write_ne (writable : name.IsWritable) {c : Char} (other : isNameStart c = false)
    (rest s : List Char) : name.write ++ rest ≠ c :: s := by
  obtain ⟨d, t, same, start⟩ := writable.begins
  rw [same, List.cons_append]
  intro equal
  obtain ⟨rfl, _⟩ := List.cons.inj equal
  rw [start] at other
  cases other

theorem IsWritable.isNameCharacter (writable : name.IsWritable) :
    ∀ c ∈ name.write, Xml.isNameCharacter c = true := by
  obtain ⟨tag, simple⟩ := writable
  unfold write
  split
  · exact List.all_eq_true.1 simple.2.1
  · next tagged =>
    have ofTag := List.all_eq_true.1 (tag.resolve_left tagged).2.1
    simp only [List.mem_append, List.mem_cons]
    rintro c (member | rfl | member)
    · exact ofTag c member
    · decide
    · exact List.all_eq_true.1 simple.2.1 c member

theorem ofRun?_write (writable : name.IsWritable) : ofRun? name.write = some name := by
  obtain ⟨tag, simple⟩ := writable
  have start : name.name.head?.any isNameStart = true := simple.1
  have single : ':' ∉ name.name := simple.2.2
  unfold write
  split
  · next untagged =>
    have whole : name.name.dropWhile (· != ':') = [] := by
      simpa using (span_append simple.no_colon [] rfl).2
    have same : name = ⟨[], name.name⟩ := by rw [← untagged]
    rw [ofRun?, whole, if_pos ⟨single, rfl, start⟩, ← same]
  · next tagged =>
    have tagged := tag.resolve_left tagged
    obtain ⟨before, after⟩ := span_append tagged.no_colon (':' :: name.name) rfl
    obtain ⟨c, s, same, tagStart⟩ := tagged.begins
    have startsAll : name.tag.head?.all isNameStart = true := by simpa [same] using tagStart
    simp [ofRun?, before, after, single, start, startsAll]

end QName

theorem qname?_write {name : QName} (writable : name.IsWritable) (rest : List Char)
    (ends : rest.head?.all (!isNameCharacter ·) = true) :
    qname? (name.write ++ rest) = some (name, rest) := by
  obtain ⟨run, later⟩ := span_append writable.isNameCharacter rest ends
  simp [qname?, run, later, QName.ofRun?_write writable]

theorem skipSpaces_write {name : QName} (writable : name.IsWritable) (rest : List Char) :
    skipSpaces (name.write ++ rest) = name.write ++ rest := by
  obtain ⟨c, s, same, start⟩ := writable.begins
  have apart : isSpace c = false := by
    cases space : isSpace c with
    | false => rfl
    | true =>
      simp only [isSpace, Bool.or_eq_true, beq_iff_eq] at space
      rcases space with ((rfl | rfl) | rfl) | rfl <;> exact absurd start (by decide)
  simp [skipSpaces, same, apart]

/-! ### Attributes -/

namespace RawAttribute

def write (raw : RawAttribute) : List Char :=
  ' ' :: (raw.1.write ++ '=' :: '"' :: (raw.2 ++ ['"']))

def IsWritable (raw : RawAttribute) : Prop :=
  raw.1.IsWritable ∧ ∀ c ∈ raw.2, isCharacter c = true ∧ c ≠ '<' ∧ c ≠ '"'

end RawAttribute

theorem attribute?_write {raw : RawAttribute} (writable : raw.IsWritable) (rest : List Char) :
    attribute? (raw.1.write ++ '=' :: '"' :: (raw.2 ++ '"' :: rest)) = some (raw, rest) := by
  obtain ⟨named, valued⟩ := writable
  have inside : ∀ c ∈ raw.2, (c != '"') = true := by
    intro c member
    simpa using (valued c member).2.2
  obtain ⟨value, later⟩ := span_append inside ('"' :: rest) rfl
  have allowed : raw.2.all (fun c => isCharacter c && c != '<') = true := by
    rw [List.all_eq_true]
    intro c member
    simpa using ⟨(valued c member).1, (valued c member).2.1⟩
  have quoted : quoted? (fun c => isCharacter c && c != '<') ('"' :: (raw.2 ++ '"' :: rest)) =
      some (raw.2, rest) := by
    simp [quoted?, value, later, expect?, allowed]
  have read := qname?_write named ('=' :: '"' :: (raw.2 ++ '"' :: rest)) rfl
  have equals (s : List Char) : skipSpaces ('=' :: s) = '=' :: s := rfl
  have quote (s : List Char) : skipSpaces ('"' :: s) = '"' :: s := rfl
  simp [attribute?, read, equals, expect?, quote, quoted]

namespace Lexeme

/-! ### Tags -/

theorem tag?_write (name : QName) {raws : List RawAttribute}
    (writable : ∀ raw ∈ raws, raw.IsWritable) (before : List RawAttribute) (rest : List Char)
    {n : Nat} (enough : raws.length < n) :
    tag? name n before (raws.flatMap RawAttribute.write ++ '>' :: rest) =
      some (opening name (before ++ raws), rest) := by
  induction raws generalizing n before with
  | nil =>
    obtain ⟨n, rfl⟩ : ∃ m, n = m + 1 := ⟨n - 1, by simp at enough; omega⟩
    simp [tag?, skipSpaces, isSpace]
  | cons raw raws ih =>
    obtain ⟨n, rfl⟩ : ∃ m, n = m + 1 := ⟨n - 1, by simp at enough; omega⟩
    obtain ⟨first, later⟩ := List.forall_mem_cons.1 writable
    have others := ih later (before ++ [raw]) (n := n) (by simpa using enough)
    have skipped (s : List Char) : skipSpaces (' ' :: (raw.1.write ++ s)) = raw.1.write ++ s :=
      skipSpaces_write first.1 s
    have spaced (s : List Char) :
        spaces? (' ' :: (raw.1.write ++ s)) = some (raw.1.write ++ s) := by
      simp [spaces?, skipped, isSpace]
    have read := attribute?_write first (raws.flatMap RawAttribute.write ++ '>' :: rest)
    simp only [List.flatMap_cons, RawAttribute.write, List.cons_append, List.append_assoc,
      List.nil_append]
    rw [tag?.eq_3 _ _ _ _ (List.cons_ne_nil _ _), skipped]
    split
    next _ empty => exact absurd empty (first.1.write_ne (by decide) _ _)
    next _ ended => exact absurd ended (first.1.write_ne (by decide) _ _)
    next => simp [spaced, read, others]

theorem length_le_flatMap_write (raws : List RawAttribute) :
    raws.length ≤ (raws.flatMap RawAttribute.write).length := by
  induction raws with
  | nil => exact Nat.le_refl 0
  | cons raw raws ih =>
    simp only [List.flatMap_cons, RawAttribute.write, List.length_append, List.length_cons]
    omega

theorem markup?_opening {name : QName} (named : name.IsWritable) {raws : List RawAttribute}
    (writable : ∀ raw ∈ raws, raw.IsWritable) (rest : List Char) :
    markup? (name.write ++ (raws.flatMap RawAttribute.write ++ '>' :: rest)) =
      some (opening name raws, rest) := by
  have ends : (raws.flatMap RawAttribute.write ++ '>' :: rest).head?.all
      (!isNameCharacter ·) = true := by
    cases raws <;> rfl
  have few : raws.length < (raws.flatMap RawAttribute.write ++ '>' :: rest).length + 1 := by
    have bound := length_le_flatMap_write raws
    rw [List.length_append]
    omega
  have read := tag?_write name writable [] rest few
  unfold markup?
  split
  next declared => exact absurd declared (named.write_ne (by decide) _ _)
  next instructed => exact absurd instructed (named.write_ne (by decide) _ _)
  next closed => exact absurd closed (named.write_ne (by decide) _ _)
  next =>
    rw [qname?_write named _ ends]
    exact read

theorem markup?_closing {name : QName} (named : name.IsWritable) (rest : List Char) :
    markup? ('/' :: (name.write ++ '>' :: rest)) = some (closing name, rest) := by
  have read := qname?_write named ('>' :: rest) rfl
  have bracket : skipSpaces ('>' :: rest) = '>' :: rest := rfl
  simp [markup?, closing?, read, bracket, expect?]

end Lexeme

end Gatehouse.Xml
