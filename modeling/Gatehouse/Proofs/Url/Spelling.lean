import Gatehouse.Proofs.Text.Utf8
import Gatehouse.Url.Parse
/-!
The spellings of octets in a URL. A character that means nothing in a URL may stand for itself, and
every octet may be a percent sign and two digits. Main statement: `IsSpelling.percentDecode_eq`,
which says that every spelling is read as the octets that it spells.
-/

namespace Gatehouse.Url

open Text

/-- Letters and digits of ASCII, and the four marks that no part of a URL gives a meaning to. -/
def isUnreserved (c : Char) : Bool :=
  ('a' ≤ c && c ≤ 'z') || ('A' ≤ c && c ≤ 'Z') || ('0' ≤ c && c ≤ '9') ||
    ['-', '_', '~', '.'].contains c

/-- The texts that octets can be written as. An octet is escaped, with digits of either case, unless
it is an unreserved character, which need not be. -/
inductive IsSpelling : List UInt8 → List Char → Prop
  | nil : IsSpelling [] []
  | plain {c : Char} {octets : List UInt8} {s : List Char} (unreserved : isUnreserved c = true)
      (rest : IsSpelling octets s) : IsSpelling (c.toUInt8 :: octets) (c :: s)
  | escaped {a b : Char} {high low : Nat} {octets : List UInt8} {s : List Char}
      (first : digitValue? 16 a = some high) (second : digitValue? 16 b = some low)
      (rest : IsSpelling octets s) :
      IsSpelling (UInt8.ofNat (high * 16 + low) :: octets) ('%' :: a :: b :: s)

/-! ### Characters of ASCII -/

def ascii : List Char := (List.range 0x80).map Char.ofNat

theorem mem_ascii {c : Char} : c ∈ ascii ↔ c.toNat < 0x80 := by
  simp only [ascii, List.mem_map, List.mem_range]
  constructor
  · rintro ⟨n, small, rfl⟩
    rwa [Char.ofNat, dif_pos (Or.inl (Nat.lt_trans small (by decide)))]
  · intro small
    exact ⟨c.toNat, small, Char.ofNat_toNat c⟩

/-! ### The characters of a spelling -/

def isSpelled (c : Char) : Bool := isUnreserved c || c == '%'

theorem mem_ascii_of_isSpelled {c : Char} (spelled : isSpelled c = true) : c ∈ ascii := by
  have below {last : Char} (least : last.toNat < 0x80) (under : decide (c ≤ last) = true) :
      c ∈ ascii :=
    mem_ascii.2 (Nat.lt_of_le_of_lt (UInt32.le_iff_toNat_le.1 (of_decide_eq_true under)) least)
  simp only [isSpelled, isUnreserved, Bool.or_eq_true, Bool.and_eq_true] at spelled
  rcases spelled with (((⟨_, small⟩ | ⟨_, capital⟩) | ⟨_, digit⟩) | mark) | sign
  · exact below (by decide) small
  · exact below (by decide) capital
  · exact below (by decide) digit
  · have each : ['-', '_', '~', '.'].all (ascii.contains ·) = true := by decide
    exact List.contains_iff_mem.1 (List.all_eq_true.1 each c (List.contains_iff_mem.1 mark))
  · rw [beq_iff_eq] at sign
    subst sign
    decide

/-- What spelled characters have in common can be tried on the characters of ASCII. -/
theorem of_isSpelled {p : Char → Bool} (each : (ascii.filter isSpelled).all p = true) {c : Char}
    (spelled : isSpelled c = true) : p c = true :=
  List.all_eq_true.1 each c (List.mem_filter.2 ⟨mem_ascii_of_isSpelled spelled, spelled⟩)

theorem isSpelled_of_digit {c : Char} {d : Nat} (digit : digitValue? 16 c = some d) :
    isSpelled c = true := by
  have small : c ∈ ascii := by
    rw [mem_ascii]
    rw [digitValue?, hexValue?] at digit
    split at digit
    · omega
    split at digit
    · omega
    split at digit
    · omega
    · cases digit
  have each : (ascii.filter fun c => (digitValue? 16 c).isSome).all isSpelled = true := by decide
  exact List.all_eq_true.1 each c (List.mem_filter.2 ⟨small, by rw [digit]; rfl⟩)

theorem IsSpelling.isSpelled {octets : List UInt8} {s : List Char}
    (spelling : IsSpelling octets s) : ∀ c ∈ s, isSpelled c = true := by
  induction spelling with
  | nil =>
    intro c member
    cases member
  | plain unreserved _ ih =>
    rw [List.forall_mem_cons]
    exact ⟨by rw [Url.isSpelled, unreserved, Bool.true_or], ih⟩
  | escaped first second _ ih =>
    simp only [List.forall_mem_cons]
    exact ⟨rfl, isSpelled_of_digit first, isSpelled_of_digit second, ih⟩

/-! ### Reading a spelling -/

theorem utf8EncodeChar_of_small {c : Char} (small : c.toNat < 0x80) :
    String.utf8EncodeChar c = [c.toUInt8] := by
  have bound : c.val.toNat ≤ 0x7F := Nat.le_of_lt_succ small
  simp only [String.utf8EncodeChar, bound, if_true]
  rfl

theorem IsSpelling.percentDecode_eq {octets : List UInt8} {s : List Char}
    (spelling : IsSpelling octets s) : percentDecode s = octets := by
  induction spelling with
  | nil => rfl
  | @plain c octets s unreserved _ ih =>
    have spelled : Url.isSpelled c = true := by rw [Url.isSpelled, unreserved, Bool.true_or]
    have no_sign : c ≠ '%' := by
      rintro rfl
      cases unreserved
    rw [percentDecode, utf8EncodeChar_of_small (mem_ascii.1 (mem_ascii_of_isSpelled spelled)), ih]
    · rfl
    · rintro _ _ _ rfl
      exact absurd rfl no_sign
  | escaped first second _ ih =>
    simp only [percentDecode, first, second, ih]

/-! ### Dot segments -/

theorem mem_ascii_of_toLower {c : Char} (small : c.toLower ∈ ascii) : c ∈ ascii := by
  unfold Char.toLower at small
  split at small
  · next capital =>
    have last : c.val.toNat ≤ 'Z'.val.toNat := UInt32.le_iff_toNat_le.1 capital.2
    exact mem_ascii.2 (Nat.lt_of_le_of_lt last (by decide))
  · exact small

theorem mem_of_toLower {c d : Char} {chars : List Char} (small : d ∈ ascii)
    (found : ascii.filter (·.toLower == d) = chars) (lower : c.toLower = d) : c ∈ chars := by
  rw [← found, List.mem_filter, beq_iff_eq]
  exact ⟨mem_ascii_of_toLower (lower ▸ small), lower⟩

theorem eq_of_toLower {c d : Char} (small : d ∈ ascii)
    (alone : ascii.filter (·.toLower == d) = [d]) (lower : c.toLower = d) : c = d :=
  List.mem_singleton.1 (mem_of_toLower small alone lower)

/-- One of the dots of a dot segment, as it is or escaped. -/
def IsOneDot (s : List Char) : Prop :=
  s.map Char.toLower = ['.'] ∨ s.map Char.toLower = ['%', '2', 'e']

theorem IsOneDot.percentDecode_append {s : List Char} (dot : IsOneDot s) (t : List Char) :
    percentDecode (s ++ t) = 0x2E :: percentDecode t := by
  rcases dot with plain | escaped
  · obtain ⟨c, _, rfl, first, later⟩ := List.map_eq_cons_iff.1 plain
    obtain rfl := List.map_eq_nil_iff.1 later
    obtain rfl := eq_of_toLower (by decide) (by decide) first
    rfl
  · obtain ⟨a, _, rfl, first, later⟩ := List.map_eq_cons_iff.1 escaped
    obtain ⟨b, _, rfl, second, later⟩ := List.map_eq_cons_iff.1 later
    obtain ⟨c, _, rfl, third, later⟩ := List.map_eq_cons_iff.1 later
    obtain rfl := List.map_eq_nil_iff.1 later
    obtain rfl := eq_of_toLower (by decide) (by decide) first
    obtain rfl := eq_of_toLower (by decide) (by decide) second
    have letter : c ∈ ['E', 'e'] := mem_of_toLower (by decide) (by decide) third
    simp only [List.mem_cons, List.not_mem_nil, or_false] at letter
    rcases letter with rfl | rfl <;> rfl

theorem isOneDot_of_isDot {s : List Char} (dot : isDot s = true) : IsOneDot s := by
  simp only [isDot, Bool.or_eq_true, beq_iff_eq] at dot
  rcases dot with rfl | escaped
  · exact Or.inl rfl
  · exact Or.inr escaped

theorem cut_of_isDoubleDot {s : List Char} (dots : isDoubleDot s = true) :
    ∃ first second, s = first ++ second ∧ IsOneDot first ∧ IsOneDot second := by
  have cut {a b : List Char} (lower : s.map Char.toLower = a ++ b)
      (left : a = ['.'] ∨ a = ['%', '2', 'e']) (right : b = ['.'] ∨ b = ['%', '2', 'e']) :
      ∃ first second, s = first ++ second ∧ IsOneDot first ∧ IsOneDot second := by
    obtain ⟨first, second, rfl, rfl, rfl⟩ := List.map_eq_append_iff.1 lower
    exact ⟨first, second, rfl, left, right⟩
  simp only [isDoubleDot, Bool.or_eq_true, beq_iff_eq] at dots
  rcases dots with ((plain | later) | earlier) | both
  · exact cut (a := ['.']) (b := ['.']) plain (.inl rfl) (.inl rfl)
  · exact cut (a := ['.']) (b := ['%', '2', 'e']) later (.inl rfl) (.inr rfl)
  · exact cut (a := ['%', '2', 'e']) (b := ['.']) earlier (.inr rfl) (.inl rfl)
  · exact cut (a := ['%', '2', 'e']) (b := ['%', '2', 'e']) both (.inr rfl) (.inr rfl)

theorem percentDecode_of_isDot {s : List Char} (dot : isDot s = true) :
    percentDecode s = [0x2E] := by
  rw [← List.append_nil s, (isOneDot_of_isDot dot).percentDecode_append]
  rfl

theorem percentDecode_of_isDoubleDot {s : List Char} (dots : isDoubleDot s = true) :
    percentDecode s = [0x2E, 0x2E] := by
  obtain ⟨first, second, rfl, left, right⟩ := cut_of_isDoubleDot dots
  rw [left.percentDecode_append, ← List.append_nil second, right.percentDecode_append]
  rfl

end Gatehouse.Url
