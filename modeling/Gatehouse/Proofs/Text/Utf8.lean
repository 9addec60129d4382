import Gatehouse.Text.Utf8
/-!
UTF-8 as a code. `Spells` says which octets are a character, by how many octets it has. Main
statement: `decode_eq_ok_iff`, which says that octets are read as a text exactly if they are the
octets of that text.
-/

namespace Gatehouse.Text

theorem toNat_characterOf {code : Nat} (valid : code.isValidChar) :
    (characterOf code).toNat = code := by
  rw [characterOf, if_pos valid, Char.ofNat, dif_pos valid]
  rfl

namespace Utf8

/-- The octets that are a character, with the character that is put together from their bits. -/
inductive Spells : List UInt8 → Char → Prop
  | one {a : UInt8} : a < 0x80 → Spells [a] (join a.toNat [])
  | two {a b : UInt8} : 0xC2 ≤ a → a ≤ 0xDF → isTail b = true →
      Spells [a, b] (join (a.toNat % 32) [b])
  | three {a b c : UInt8} : 0xE0 ≤ a → a ≤ 0xEF → isSecond a b = true → isTail c = true →
      Spells [a, b, c] (join (a.toNat % 16) [b, c])
  | four {a b c d : UInt8} : 0xF0 ≤ a → a ≤ 0xF4 → isSecond a b = true → isTail c = true →
      isTail d = true → Spells [a, b, c, d] (join (a.toNat % 8) [b, c, d])

/-! ### The decoder looks for these octets -/

theorem Spells.pieces_append {octets : List UInt8} {c : Char} (spelled : Spells octets c)
    (rest : List UInt8) : pieces (octets ++ rest) = .char c :: pieces rest := by
  cases spelled with
  | one => rw [List.cons_append, pieces.eq_def]; grind
  | two => rw [List.cons_append, pieces.eq_def]; grind
  | three => rw [List.cons_append, pieces.eq_def]; grind
  | four => rw [List.cons_append, pieces.eq_def]; grind

theorem exists_spells_of_pieces {octets : List UInt8} {c : Char} {later : List Piece}
    (found : pieces octets = .char c :: later) :
    ∃ start rest, Spells start c ∧ octets = start ++ rest ∧ later = pieces rest := by
  revert found
  -- Only four of the ways through the decoder find a character.
  fun_cases pieces octets with
  | case2 a rest small =>
    rintro ⟨⟩
    exact ⟨[a], rest, .one small, rfl, rfl⟩
  | case4 a _ first b rest tail =>
    rintro ⟨⟩
    simp only [Bool.and_eq_true, decide_eq_true_eq] at first
    exact ⟨[a, b], rest, .two first.1 first.2 tail, rfl, rfl⟩
  | case8 a _ _ first b second c rest tail =>
    rintro ⟨⟩
    simp only [Bool.and_eq_true, decide_eq_true_eq] at first
    exact ⟨[a, b, c], rest, .three first.1 first.2 second tail, rfl, rfl⟩
  | case14 a _ _ _ first b second c third d rest tail =>
    rintro ⟨⟩
    simp only [Bool.and_eq_true, decide_eq_true_eq] at first
    exact ⟨[a, b, c, d], rest, .four first.1 first.2 second third tail, rfl, rfl⟩
  | _ => rintro ⟨⟩

/-! ### They are the octets that characters are encoded as -/

theorem toNat_join {start : Nat} {tails : List UInt8} {code : Nat}
    (sum : tails.foldl (fun n b => n * 64 + b.toNat % 64) start = code)
    (valid : code.isValidChar) : (join start tails).toNat = code := by
  rw [join, sum, toNat_characterOf valid]

theorem ofNat_eq_of_toNat {a : UInt8} {n : Nat} (same : n = a.toNat) : UInt8.ofNat n = a := by
  rw [same, UInt8.ofNat_toNat]

theorem isTail_iff {b : UInt8} : isTail b = true ↔ 0x80 ≤ b.toNat ∧ b.toNat ≤ 0xBF := by
  simp [isTail, UInt8.le_iff_toNat_le]

/-- The second octet is one that may follow, and four first octets leave some of these out. -/
theorem isSecond_iff {a b : UInt8} :
    isSecond a b = true ↔ isTail b = true ∧ (a.toNat = 0xE0 → 0xA0 ≤ b.toNat) ∧
      (a.toNat = 0xED → b.toNat ≤ 0x9F) ∧ (a.toNat = 0xF0 → 0x90 ≤ b.toNat) ∧
      (a.toNat = 0xF4 → b.toNat ≤ 0x8F) := by
  simp only [isSecond, beq_iff_eq, ← UInt8.toNat_inj, UInt8.toNat_ofNat, isTail_iff]
  split
  · simp [UInt8.le_iff_toNat_le]; omega
  split
  · simp [UInt8.le_iff_toNat_le]; omega
  split
  · simp [UInt8.le_iff_toNat_le]; omega
  split
  · simp [UInt8.le_iff_toNat_le]; omega
  · simp [isTail_iff]; omega

theorem Spells.eq_utf8EncodeChar {octets : List UInt8} {c : Char} (spelled : Spells octets c) :
    octets = String.utf8EncodeChar c := by
  cases spelled with
  | @one a small =>
    have bound : a.toNat < 0x80 := UInt8.lt_iff_toNat_lt.1 small
    have code : (join a.toNat []).toNat = a.toNat := toNat_join rfl (Or.inl (by omega))
    simp only [String.utf8EncodeChar, Char.toNat_val, code]
    rw [if_pos (by omega), UInt8.ofNat_toNat]
  | @two a b low high tail =>
    have first : 0xC2 ≤ a.toNat ∧ a.toNat ≤ 0xDF :=
      ⟨UInt8.le_iff_toNat_le.1 low, UInt8.le_iff_toNat_le.1 high⟩
    have second := isTail_iff.1 tail
    have code : (join (a.toNat % 32) [b]).toNat = a.toNat % 32 * 64 + b.toNat % 64 :=
      toNat_join rfl (Or.inl (by omega))
    simp only [String.utf8EncodeChar, Char.toNat_val, code]
    rw [if_neg (by omega), if_pos (by omega), ofNat_eq_of_toNat (a := a) (by omega),
      ofNat_eq_of_toNat (a := b) (by omega)]
  | @three a b c low high second tail =>
    have first : 0xE0 ≤ a.toNat ∧ a.toNat ≤ 0xEF :=
      ⟨UInt8.le_iff_toNat_le.1 low, UInt8.le_iff_toNat_le.1 high⟩
    obtain ⟨inner, least, surrogate, -, -⟩ := isSecond_iff.1 second
    have second := isTail_iff.1 inner
    have third := isTail_iff.1 tail
    have code : (join (a.toNat % 16) [b, c]).toNat =
        (a.toNat % 16 * 64 + b.toNat % 64) * 64 + c.toNat % 64 := by
      refine toNat_join rfl ?_
      unfold Nat.isValidChar
      omega
    simp only [String.utf8EncodeChar, Char.toNat_val, code]
    rw [if_neg (by omega), if_neg (by omega), if_pos (by omega),
      ofNat_eq_of_toNat (a := a) (by omega), ofNat_eq_of_toNat (a := b) (by omega),
      ofNat_eq_of_toNat (a := c) (by omega)]
  | @four a b c d low high second third tail =>
    have first : 0xF0 ≤ a.toNat ∧ a.toNat ≤ 0xF4 :=
      ⟨UInt8.le_iff_toNat_le.1 low, UInt8.le_iff_toNat_le.1 high⟩
    obtain ⟨inner, -, -, least, greatest⟩ := isSecond_iff.1 second
    have second := isTail_iff.1 inner
    have third := isTail_iff.1 third
    have fourth := isTail_iff.1 tail
    have code : (join (a.toNat % 8) [b, c, d]).toNat =
        ((a.toNat % 8 * 64 + b.toNat % 64) * 64 + c.toNat % 64) * 64 + d.toNat % 64 := by
      refine toNat_join rfl ?_
      unfold Nat.isValidChar
      omega
    simp only [String.utf8EncodeChar, Char.toNat_val, code]
    rw [if_neg (by omega), if_neg (by omega), if_neg (by omega),
      ofNat_eq_of_toNat (a := a) (by omega), ofNat_eq_of_toNat (a := b) (by omega),
      ofNat_eq_of_toNat (a := c) (by omega), ofNat_eq_of_toNat (a := d) (by omega)]

theorem spells_utf8EncodeChar (c : Char) : Spells (String.utf8EncodeChar c) c := by
  have valid : c.toNat < 0xD800 ∨ 0xDFFF < c.toNat ∧ c.toNat < 0x110000 := c.valid
  have join_eq (start : Nat) (tails : List UInt8)
      (sum : tails.foldl (fun n b => n * 64 + b.toNat % 64) start = c.toNat) :
      join start tails = c := by
    rw [join, sum, characterOf_toNat]
  have octet {n : Nat} (small : n < 256) : (UInt8.ofNat n).toNat = n :=
    UInt8.toNat_ofNat_of_lt' small
  simp only [String.utf8EncodeChar, Char.toNat_val]
  split
  · have first := octet (n := c.toNat) (by omega)
    generalize UInt8.ofNat c.toNat = a at first ⊢
    rw [← join_eq a.toNat [] first]
    exact .one (UInt8.lt_iff_toNat_lt.2 (show a.toNat < 0x80 by omega))
  split
  · have first := octet (n := c.toNat / 64 % 32 + 192) (by omega)
    have second := octet (n := c.toNat % 64 + 128) (by omega)
    generalize UInt8.ofNat (c.toNat / 64 % 32 + 192) = a at first ⊢
    generalize UInt8.ofNat (c.toNat % 64 + 128) = b at second ⊢
    have code : a.toNat % 32 * 64 + b.toNat % 64 = c.toNat := by omega
    rw [← join_eq _ [b] code]
    exact .two (UInt8.le_iff_toNat_le.2 (show 0xC2 ≤ a.toNat by omega))
      (UInt8.le_iff_toNat_le.2 (show a.toNat ≤ 0xDF by omega)) (isTail_iff.2 (by omega))
  split
  · have first := octet (n := c.toNat / 4096 % 16 + 224) (by omega)
    have second := octet (n := c.toNat / 64 % 64 + 128) (by omega)
    have third := octet (n := c.toNat % 64 + 128) (by omega)
    generalize UInt8.ofNat (c.toNat / 4096 % 16 + 224) = a at first ⊢
    generalize UInt8.ofNat (c.toNat / 64 % 64 + 128) = b at second ⊢
    generalize UInt8.ofNat (c.toNat % 64 + 128) = d at third ⊢
    have code : (a.toNat % 16 * 64 + b.toNat % 64) * 64 + d.toNat % 64 = c.toNat := by omega
    rw [← join_eq _ [b, d] code]
    exact .three (UInt8.le_iff_toNat_le.2 (show 0xE0 ≤ a.toNat by omega))
      (UInt8.le_iff_toNat_le.2 (show a.toNat ≤ 0xEF by omega))
      (isSecond_iff.2 ⟨isTail_iff.2 (by omega), by omega, by omega, by omega, by omega⟩)
      (isTail_iff.2 (by omega))
  · have first := octet (n := c.toNat / 262144 % 8 + 240) (by omega)
    have second := octet (n := c.toNat / 4096 % 64 + 128) (by omega)
    have third := octet (n := c.toNat / 64 % 64 + 128) (by omega)
    have fourth := octet (n := c.toNat % 64 + 128) (by omega)
    generalize UInt8.ofNat (c.toNat / 262144 % 8 + 240) = a at first ⊢
    generalize UInt8.ofNat (c.toNat / 4096 % 64 + 128) = b at second ⊢
    generalize UInt8.ofNat (c.toNat / 64 % 64 + 128) = d at third ⊢
    generalize UInt8.ofNat (c.toNat % 64 + 128) = e at fourth ⊢
    have code : ((a.toNat % 8 * 64 + b.toNat % 64) * 64 + d.toNat % 64) * 64 + e.toNat % 64 =
        c.toNat := by omega
    rw [← join_eq _ [b, d, e] code]
    exact .four (UInt8.le_iff_toNat_le.2 (show 0xF0 ≤ a.toNat by omega))
      (UInt8.le_iff_toNat_le.2 (show a.toNat ≤ 0xF4 by omega))
      (isSecond_iff.2 ⟨isTail_iff.2 (by omega), by omega, by omega, by omega, by omega⟩)
      (isTail_iff.2 (by omega)) (isTail_iff.2 (by omega))

theorem spells_iff {octets : List UInt8} {c : Char} :
    Spells octets c ↔ octets = String.utf8EncodeChar c :=
  ⟨Spells.eq_utf8EncodeChar, fun same => same ▸ spells_utf8EncodeChar c⟩

/-! ### Whole texts -/

theorem pieces_eq_nil_iff {octets : List UInt8} : pieces octets = [] ↔ octets = [] := by
  fun_cases pieces octets <;> simp

/-- All that the decoder finds are the characters of a text exactly if the octets are those of the
text. -/
theorem pieces_eq_map_char_iff {octets : List UInt8} {s : List Char} :
    pieces octets = s.map .char ↔ octets = encode s := by
  induction s generalizing octets with
  | nil => exact pieces_eq_nil_iff
  | cons c s ih =>
    constructor
    · intro found
      obtain ⟨start, rest, spelled, rfl, later⟩ := exists_spells_of_pieces found
      rw [spells_iff.1 spelled, ih.1 later.symm]
      rfl
    · rintro rfl
      rw [List.map_cons, ← ih.2 rfl]
      exact (spells_utf8EncodeChar c).pieces_append (encode s)

theorem collect_map_char (index : Nat) (s : List Char) :
    collect index (s.map .char) = .ok s := by
  induction s generalizing index with
  | nil => rfl
  | cons c s ih => rw [List.map_cons, collect, ih]; rfl

theorem eq_map_char_of_collect {index : Nat} {found : List Piece} {s : List Char}
    (collected : collect index found = .ok s) : found = s.map .char := by
  induction found generalizing index s with
  | nil =>
    cases collected
    rfl
  | cons piece later ih =>
    cases piece with
    | char c =>
      rw [collect] at collected
      cases rest : collect (index + c.utf8Size) later with
      | error fault =>
        rw [rest] at collected
        cases collected
      | ok t =>
        rw [rest] at collected
        cases collected
        rw [List.map_cons, ih rest]
    | invalid length => cases collected
    | incomplete => cases collected

theorem decode_eq_ok_iff {octets : List UInt8} {s : List Char} :
    decode octets = .ok s ↔ octets = encode s := by
  rw [← pieces_eq_map_char_iff, decode]
  constructor
  · exact eq_map_char_of_collect
  · intro found
    rw [found, collect_map_char]

theorem encode_inj {s t : List Char} : encode s = encode t ↔ s = t := by
  constructor
  · intro same
    have read : decode (encode t) = .ok s := decode_eq_ok_iff.2 same.symm
    rw [decode_eq_ok_iff.2 rfl] at read
    exact (Except.ok.inj read).symm
  · rintro rfl
    rfl

theorem decodeLossy_encode (s : List Char) : decodeLossy (encode s) = s := by
  rw [decodeLossy, pieces_eq_map_char_iff.2 rfl, List.map_map]
  exact List.map_id s

/-- A text begins with a character exactly if its octets begin with those of the character. -/
theorem encode_eq_append_iff {s : List Char} {c : Char} {rest : List UInt8} :
    encode s = encode [c] ++ rest ↔ ∃ later, s = c :: later ∧ rest = encode later := by
  constructor
  · intro begins
    have found : pieces (encode s) = .char c :: pieces rest := by
      rw [begins, encode, List.flatMap_singleton]
      exact (spells_utf8EncodeChar c).pieces_append rest
    rw [pieces_eq_map_char_iff.2 rfl] at found
    cases s with
    | nil => cases found
    | cons d later =>
      obtain ⟨same, after⟩ := List.cons.inj found
      obtain rfl := Piece.char.inj same
      exact ⟨later, rfl, pieces_eq_map_char_iff.1 after.symm⟩
  · rintro ⟨later, rfl, rfl⟩
    rw [← List.singleton_append, encode, encode, encode, List.flatMap_append]

end Utf8

end Gatehouse.Text
