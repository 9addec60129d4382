import Gatehouse.Toml.Printer
/-!
Sections, written and read back. Main statement: `ofText?_sections`, which says that every list of
sections comes back as the tables that it consists of, whatever characters its texts have.
-/

namespace Gatehouse

namespace Toml

open Text

/-! ### Texts -/

/-- The digits of a code point, of which those before have made the number `code`. -/
theorem content?_digits {c : Char} {digits : List Char} {code : Nat} (some_digit : digits ≠ [])
    (denoted : numeralFrom? 16 code digits = some c.toNat) (s : List Char) :
    content? false (.digits digits.length code) (digits ++ s) =
      (content? false .plain s).map fun (content, rest) => (c :: content, rest) := by
  induction digits generalizing code with
  | nil => exact absurd rfl some_digit
  | cons d digits ih =>
    rw [numeralFrom?] at denoted
    cases digit : digitValue? 16 d with
    | none =>
      rw [digit] at denoted
      cases denoted
    | some value =>
      rw [digit] at denoted
      rw [List.cons_append, content?, digit, Option.bind_eq_bind, Option.bind_some]
      cases digits with
      | nil =>
        have whole : code * 16 + value = c.toNat := Option.some.inj denoted
        have valid : c.toNat.isValidChar := c.valid
        simp only [List.length_singleton, Nat.lt_irrefl, if_false, whole, valid, if_true,
          List.nil_append, Char.ofNat_toNat, Option.bind_eq_bind, Option.map_eq_bind,
          Option.pure_def, Function.comp_def]
      | cons e digits =>
        have more : 1 < (d :: e :: digits).length := by simp
        rw [if_pos more]
        exact ih (List.cons_ne_nil e digits) denoted

theorem length_codeDigits (c : Char) : (codeDigits c).length = 8 := by
  have valid : c.toNat.isValidChar := c.valid
  have bounded : c.toNat < 16 ^ 8 := by rcases valid with low | high <;> omega
  have short : (Nat.toDigits 16 c.toNat).length ≤ 8 :=
    (Nat.length_toDigits_le_iff (by decide) (by decide)).2 bounded
  rw [codeDigits, List.length_append, List.length_replicate]
  omega

theorem numeralFrom?_codeDigits (c : Char) : numeralFrom? 16 0 (codeDigits c) = some c.toNat := by
  have zeros (n : Nat) : numeralFrom? 16 0 (List.replicate n '0') = some 0 := by
    induction n with
    | zero => rfl
    | succ n ih => exact ih
  rw [codeDigits, numeralFrom?_append, zeros, Option.bind_some,
    numeralFrom?_toDigits (by decide) (by decide)]

theorem content?_escape (c : Char) (s : List Char) :
    content? false .plain (escape c ++ s) =
      (content? false .plain s).map fun (content, rest) => (c :: content, rest) := by
  have some_digit : codeDigits c ≠ [] := by
    intro none
    have long := length_codeDigits c
    rw [none] at long
    cases long
  calc content? false .plain ('\\' :: 'U' :: (codeDigits c ++ s))
      = content? false (.digits (codeDigits c).length 0) (codeDigits c ++ s) := by
        simp [content?, length_codeDigits]
    _ = _ := content?_digits some_digit (numeralFrom?_codeDigits c) s

theorem content?_flatMap_escape (s rest : List Char) :
    content? false .plain (s.flatMap escape ++ '"' :: rest) = some (s, rest) := by
  induction s with
  | nil => simp [content?]
  | cons c s ih => rw [List.flatMap_cons, List.append_assoc, content?_escape, ih]; rfl

/-- A text in quotes is read back. What follows an empty one must not be a third quote, with which a
text over several lines would begin. -/
theorem quoted?_writeString (s : String) {rest : List Char} (apart : rest.head? ≠ some '"') :
    quoted? (writeString s ++ rest) = some (s.toList, rest) := by
  have short : quoted? ('"' :: (s.toList.flatMap escape ++ '"' :: rest)) =
      short? ('"' :: (s.toList.flatMap escape ++ '"' :: rest)) := by
    cases s.toList with
    | nil =>
      cases rest with
      | nil => rfl
      | cons c rest =>
        have other : c ≠ '"' := by simpa using apart
        simp [quoted?, other]
    | cons c later => simp [quoted?, escape]
  rw [writeString, List.cons_append, List.cons_append, List.append_assoc, List.singleton_append,
    short, short?, content?_flatMap_escape]

theorem value?_writeString (depth : Nat) (s : String) {rest : List Char}
    (apart : rest.head? ≠ some '"') :
    value? (depth + 1) (writeString s ++ rest) = some (.string s, rest) := by
  have read : value? (depth + 1) (writeString s ++ rest) =
      (quoted? (writeString s ++ rest)).map fun (content, rest) =>
        (.string (String.ofList content), rest) := by
    rw [writeString, List.cons_append, List.cons_append, value?]
  rw [read, quoted?_writeString s apart]
  simp only [Option.map_some, String.ofList_toList]

/-! ### Names -/

def IsName (name : String) : Prop := name ≠ "" ∧ name.toList.all isBare = true

instance (name : String) : Decidable (IsName name) := inferInstanceAs (Decidable (_ ∧ _))

theorem ne_of_isBare {c d : Char} (bare : isBare c = true) (other : isBare d = false) : c ≠ d := by
  rintro rfl
  exact absurd (bare.symm.trans other) (by decide)

theorem IsName.exists_cons {name : String} (ok : IsName name) :
    ∃ c s, name.toList = c :: s ∧ isBare c = true := by
  obtain ⟨some_char, bare⟩ := ok
  cases chars : name.toList with
  | nil => exact absurd (String.toList_eq_nil_iff.1 chars) some_char
  | cons c s =>
    rw [chars, List.all_cons, Bool.and_eq_true] at bare
    exact ⟨c, s, rfl, bare.1⟩

theorem part?_name {name : String} (ok : IsName name) {rest : List Char}
    (stop : rest.head?.all (!isBare ·) = true) :
    part? (name.toList ++ rest) = some (name, rest) := by
  obtain ⟨before, after⟩ := span_append (List.all_eq_true.1 ok.2) rest stop
  obtain ⟨c, s, chars, bare⟩ := ok.exists_cons
  have double := ne_of_isBare bare (show isBare '"' = false by decide)
  have single := ne_of_isBare bare (show isBare '\'' = false by decide)
  have some_char : name.toList.isEmpty = false := by simp [chars]
  have read : part? (name.toList ++ rest) =
      if ((name.toList ++ rest).takeWhile isBare).isEmpty then none
      else some (String.ofList ((name.toList ++ rest).takeWhile isBare),
        (name.toList ++ rest).dropWhile isBare) := by
    rw [chars, List.cons_append, part?]
    · intro later same
      exact double (List.cons.inj same).1
    · intro later same
      exact single (List.cons.inj same).1
  simp only [read, before, after, some_char, Bool.false_eq_true, if_false, String.ofList_toList]

theorem skipBlanks_name {name : String} (ok : IsName name) (rest : List Char) :
    skipBlanks (name.toList ++ rest) = name.toList ++ rest := by
  obtain ⟨c, s, chars, bare⟩ := ok.exists_cons
  have space := ne_of_isBare bare (show isBare ' ' = false by decide)
  have tab := ne_of_isBare bare (show isBare '\t' = false by decide)
  simp [chars, skipBlanks, isBlank, space, tab]

theorem skipLines_name {name : String} (ok : IsName name) (rest : List Char) :
    skipLines false (name.toList ++ rest) = name.toList ++ rest := by
  obtain ⟨c, s, chars, bare⟩ := ok.exists_cons
  have comment := ne_of_isBare bare (show isBare '#' = false by decide)
  have space := ne_of_isBare bare (show isBare ' ' = false by decide)
  have tab := ne_of_isBare bare (show isBare '\t' = false by decide)
  have newline := ne_of_isBare bare (show isBare '\n' = false by decide)
  simp [chars, skipLines, isBlankOrNewline, isBlank, comment, space, tab, newline]

theorem key?_name {name : String} (ok : IsName name) (n : Nat) {rest : List Char}
    (stop : rest.head?.all (!isBare ·) = true) (whole : (skipBlanks rest).head? ≠ some '.') :
    key? (n + 1) (name.toList ++ rest) = some (⟨[], name⟩, skipBlanks rest) := by
  rw [key?, skipBlanks_name ok, part?_name ok stop, Option.bind_eq_bind, Option.bind_some]
  simp only
  split
  · next point => exact absurd (congrArg List.head? point) whole
  · rfl

/-! ### Expressions -/

def Expression.ofEntry (entry : String × String) : Expression :=
  .assignment ⟨[], entry.1⟩ (.string entry.2)

namespace Section

def expressions (block : Section) : List Expression :=
  .header ⟨[], block.name⟩ :: block.entries.map .ofEntry

/-- A section that can be written: its name and its keys are bare, and no key is there twice. -/
structure IsProper (block : Section) : Prop where
  name : IsName block.name
  keys : ∀ entry ∈ block.entries, IsName entry.1
  distinct : (block.entries.map Prod.fst).Nodup

end Section

namespace Expression

theorem first?_writeEntry {entry : String × String} (ok : IsName entry.1) (rest : List Char) :
    first? (writeEntry entry ++ rest) = some (.ofEntry entry, '\n' :: rest) := by
  obtain ⟨key, text⟩ := entry
  have value : value? (maxDepth - 1) (writeString text ++ '\n' :: rest) =
      some (.string text, '\n' :: rest) := value?_writeString 78 text (by simp)
  have shape : writeEntry (key, text) ++ rest =
      key.toList ++ ' ' :: '=' :: ' ' :: (writeString text ++ '\n' :: rest) := by
    simp [writeEntry]
  have name : key? maxKey (key.toList ++ ' ' :: '=' :: ' ' :: (writeString text ++ '\n' :: rest)) =
      some (⟨[], key⟩, '=' :: ' ' :: (writeString text ++ '\n' :: rest)) :=
    key?_name ok 77 rfl (by simp [skipBlanks, isBlank])
  have read : assignment? (value? (maxDepth - 1)) (writeEntry (key, text) ++ rest) =
      some ((⟨[], key⟩, .string text), '\n' :: rest) := by
    have start : skipBlanks (' ' :: (writeString text ++ '\n' :: rest)) =
        writeString text ++ '\n' :: rest := rfl
    have stop : skipBlanks ('\n' :: rest) = '\n' :: rest := rfl
    simp only [shape, assignment?, name, Option.bind_eq_bind, Option.bind_some, start, value, stop,
      Option.pure_def]
  have noHeader (later : List Char) : writeEntry (key, text) ++ rest ≠ '[' :: later := by
    obtain ⟨c, s, chars, bare⟩ := ok.exists_cons
    intro same
    rw [shape, chars] at same
    exact ne_of_isBare bare (show isBare '[' = false by decide) (List.cons.inj same).1
  rw [first?, read, Option.map_some]
  · rfl
  · exact fun later => noHeader ('[' :: later)
  · exact noHeader

theorem first?_header {name : String} (ok : IsName name) (rest : List Char) :
    first? ('[' :: name.toList ++ ']' :: rest) = some (.header ⟨[], name⟩, rest) := by
  obtain ⟨c, s, chars, bare⟩ := ok.exists_cons
  have bracket := ne_of_isBare bare (show isBare '[' = false by decide)
  have read : key? maxKey (name.toList ++ ']' :: rest) = some (⟨[], name⟩, ']' :: rest) :=
    key?_name ok 77 rfl (by simp [skipBlanks, isBlank])
  rw [List.cons_append, first?, read]
  · rfl
  · intro later same
    rw [chars] at same
    exact bracket (List.cons.inj same).1

theorem scan?_cons {expression : Expression} {n : Nat} {s rest : List Char} (some_char : s ≠ [])
    (start : skipLines false s = s) (read : first? s = some (expression, '\n' :: rest)) :
    scan? (n + 1) s = (scan? n rest).map (expression :: ·) := by
  have ended : endLine? ('\n' :: rest) = some rest := rfl
  have more : skipLines false s ≠ [] := start.symm ▸ some_char
  rw [scan?.eq_3 s n more, start]
  simp only [read, ended, Option.bind_eq_bind, Option.bind_some, Option.map_eq_bind,
    Option.pure_def, Function.comp_def]

theorem scan?_entries {entries : List (String × String)} (keys : ∀ entry ∈ entries, IsName entry.1)
    (n : Nat) (rest : List Char) :
    scan? (n + entries.length) (entries.flatMap writeEntry ++ rest) =
      (scan? n rest).map (entries.map ofEntry ++ ·) := by
  induction entries with
  | nil => simp
  | cons entry entries ih =>
    obtain ⟨here, later⟩ := List.forall_mem_cons.1 keys
    rw [List.flatMap_cons, List.append_assoc, List.length_cons, ← Nat.add_assoc,
      scan?_cons _ _ (first?_writeEntry here _), ih later, Option.map_map]
    · rfl
    · simp [writeEntry]
    · rw [writeEntry, List.append_assoc, List.append_assoc, List.append_assoc, skipLines_name here]

theorem scan?_section {block : Section} (proper : block.IsProper) (n : Nat) (rest : List Char) :
    scan? (n + block.expressions.length) (block.write ++ rest) =
      (scan? n rest).map (block.expressions ++ ·) := by
  have shape : block.write ++ rest =
      '[' :: block.name.toList ++ ']' :: '\n' :: (block.entries.flatMap writeEntry ++ rest) := by
    simp [Section.write]
  rw [shape, Section.expressions, List.length_cons, List.length_map, ← Nat.add_assoc,
    scan?_cons _ _ (first?_header proper.name _), scan?_entries proper.keys, Option.map_map]
  · rfl
  · simp
  · rfl

theorem scan?_sections {blocks : List Section} (proper : ∀ block ∈ blocks, block.IsProper)
    (n : Nat) :
    scan? (n + (blocks.flatMap Section.expressions).length) (blocks.flatMap Section.write) =
      some (blocks.flatMap Section.expressions) := by
  induction blocks with
  | nil => exact scan?.eq_1 [] _ rfl
  | cons block blocks ih =>
    obtain ⟨here, later⟩ := List.forall_mem_cons.1 proper
    rw [List.flatMap_cons, List.flatMap_cons, List.length_append,
      Nat.add_comm block.expressions.length, ← Nat.add_assoc, scan?_section here, ih later,
      Option.map_some]

end Expression

/-! ### The document -/

def isClean (c : Char) : Bool := c != '\r' && !isForbidden c

theorem lines?_of_clean {s : List Char} (clean : s.all isClean = true) : lines? s = some s := by
  induction s with
  | nil => rfl
  | cons c s ih =>
    rw [List.all_cons, Bool.and_eq_true] at clean
    obtain ⟨⟨feed, allowed⟩, later⟩ := And.imp_left Bool.and_eq_true_iff.1 clean
    have other : c ≠ '\r' := by simpa using feed
    have fine : isForbidden c = false := by simpa using allowed
    rw [lines?, fine, if_neg Bool.false_ne_true, ih later, Option.map_some]
    intro rest same
    exact absurd same other

theorem isClean_of_isBare {c : Char} (bare : isBare c = true) : isClean c = true := by
  by_cases small : c.toNat < 128
  · have clean : ∀ n < 128, isBare (Char.ofNat n) = true → isClean (Char.ofNat n) = true := by
      decide
    exact of_toNat_lt (p := fun c => isBare c = true → isClean c = true) clean small bare
  · have feed : c ≠ '\r' := by
      rintro rfl
      exact small (by decide)
    have control : ¬ c.toNat < 0x20 := by omega
    have delete : c.toNat ≠ 0x7F := by omega
    simp [isClean, isForbidden, feed, control, delete]

theorem IsName.clean {name : String} (ok : IsName name) : name.toList.all isClean = true :=
  List.all_eq_true.2 fun c member => isClean_of_isBare (List.all_eq_true.1 ok.2 c member)

theorem clean_codeDigits (c : Char) : (codeDigits c).all isClean = true := by
  have clean : ∀ n < 0x67, isDigit 16 (Char.ofNat n) = true → isClean (Char.ofNat n) = true := by
    decide
  rw [List.all_eq_true]
  intro d member
  have digit := isDigit_of_numeralFrom? (numeralFrom?_codeDigits c) d member
  exact of_toNat_lt (p := fun c => isDigit 16 c = true → isClean c = true) clean
    (toNat_lt_of_isDigit digit) digit

theorem clean_writeString (s : String) : (writeString s).all isClean = true := by
  have escapes : (s.toList.flatMap escape).all isClean = true := by
    rw [List.all_flatMap, List.all_eq_true]
    intro c _
    rw [escape, List.all_cons, List.all_cons, clean_codeDigits]
    rfl
  rw [writeString, List.cons_append, List.all_cons, List.all_append, escapes]
  rfl

theorem Section.IsProper.clean {block : Section} (proper : block.IsProper) :
    block.write.all isClean = true := by
  have lines : (block.entries.flatMap writeEntry).all isClean = true := by
    rw [List.all_flatMap, List.all_eq_true]
    intro entry member
    rw [writeEntry, List.all_append, List.all_append, List.all_append, clean_writeString,
      (proper.keys entry member).clean]
    rfl
  rw [Section.write, List.all_append, List.cons_append, List.all_cons, List.all_append, lines,
    proper.name.clean]
  rfl

theorem Section.length_expressions_le (block : Section) :
    block.expressions.length ≤ block.write.length := by
  have lines : block.entries.length ≤ (block.entries.flatMap writeEntry).length := by
    induction block.entries with
    | nil => exact Nat.le_refl 0
    | cons entry entries ih =>
      simp only [List.flatMap_cons, List.length_append, List.length_cons, writeEntry]
      omega
  simp only [expressions, write, List.length_cons, List.length_map, List.length_append]
  omega

theorem Section.length_flatMap_expressions_le (blocks : List Section) :
    (blocks.flatMap expressions).length ≤ (blocks.flatMap write).length := by
  induction blocks with
  | nil => exact Nat.le_refl 0
  | cons block blocks ih =>
    have here := block.length_expressions_le
    rw [List.flatMap_cons, List.flatMap_cons, List.length_append, List.length_append]
    omega

theorem ofText?_expressions {blocks : List Section} (proper : ∀ block ∈ blocks, block.IsProper) :
    Expression.ofText? (blocks.flatMap Section.write) =
      some (blocks.flatMap Section.expressions) := by
  have clean : (blocks.flatMap Section.write).all isClean = true := by
    rw [List.all_flatMap, List.all_eq_true]
    exact fun block member => (proper block member).clean
  obtain ⟨n, fuel⟩ := Nat.exists_eq_add_of_le' (Section.length_flatMap_expressions_le blocks)
  have read := Expression.scan?_sections proper n
  rw [← fuel] at read
  rw [Expression.ofText?, lines?_of_clean clean, Option.bind_eq_bind, Option.bind_some]
  cases blocks with
  | nil => exact read
  | cons block blocks => exact read

/-! ### The tables -/

namespace Document

theorem foldlM_entries {name : String} {done : Table} (new : name ∉ done.map Prod.fst)
    {entries : List (String × String)} {inner : Table}
    (distinct : (inner.map Prod.fst ++ entries.map Prod.fst).Nodup) :
    (entries.map .ofEntry).foldlM add? ⟨done ++ [(name, .table .header inner)], [name]⟩ =
      some ⟨done ++ [(name, .table .header
        (inner ++ entries.map fun (key, text) => (key, .string text)))], [name]⟩ := by
  induction entries generalizing inner with
  | nil => simp
  | cons entry entries ih =>
    obtain ⟨key, text⟩ := entry
    have absent : key ∉ inner.map Prod.fst := by
      intro member
      exact (List.nodup_append.1 distinct).2.2 key member key (by simp) rfl
    have step : add? ⟨done ++ [(name, .table .header inner)], [name]⟩
        (.ofEntry (key, text)) =
        some ⟨done ++ [(name, .table .header (inner ++ [(key, .string text)]))], [name]⟩ := by
      simp [add?, Expression.ofEntry, Change.within, addValue, Keyed.lookup_append_new new,
        Keyed.lookup_of_new absent, Keyed.put_of_new absent, Keyed.put_append_new new]
    have rest : ((inner ++ [(key, Value.string text)]).map Prod.fst ++
        entries.map Prod.fst).Nodup := by simpa using distinct
    rw [List.map_cons, List.foldlM_cons, step, Option.bind_eq_bind, Option.bind_some, ih rest]
    simp

theorem foldlM_section {block : Section} (proper : block.IsProper) {done : Table}
    {current : List String} (new : block.name ∉ done.map Prod.fst) :
    block.expressions.foldlM add? ⟨done, current⟩ =
      some ⟨done ++ [(block.name, .table .header block.table)], [block.name]⟩ := by
  have header : add? ⟨done, current⟩ (.header ⟨[], block.name⟩) =
      some ⟨done ++ [(block.name, .table .header [])], [block.name]⟩ := by
    simp [add?, Change.within, addHeader, Keyed.lookup_of_new new, Keyed.put_of_new new]
  rw [Section.expressions, List.foldlM_cons, header, Option.bind_eq_bind, Option.bind_some,
    foldlM_entries new (by simpa using proper.distinct)]
  rfl

theorem foldlM_sections {blocks : List Section} (proper : ∀ block ∈ blocks, block.IsProper)
    {done : Table} {current : List String}
    (distinct : (done.map Prod.fst ++ blocks.map Section.name).Nodup) :
    ((blocks.flatMap Section.expressions).foldlM add? ⟨done, current⟩).map table =
      some (done ++ blocks.map fun block => (block.name, .table .header block.table)) := by
  induction blocks generalizing done current with
  | nil => simp
  | cons block blocks ih =>
    obtain ⟨here, later⟩ := List.forall_mem_cons.1 proper
    have new : block.name ∉ done.map Prod.fst := by
      intro member
      exact (List.nodup_append.1 distinct).2.2 _ member block.name (by simp) rfl
    have rest : ((done ++ [(block.name, Value.table .header block.table)]).map Prod.fst ++
        blocks.map Section.name).Nodup := by simpa using distinct
    rw [List.flatMap_cons, List.foldlM_append, foldlM_section here new, Option.bind_eq_bind,
      Option.bind_some, ih later rest]
    simp

end Document

/-- Sections of different names are read back as tables under these names. -/
theorem ofText?_sections {blocks : List Section} (proper : ∀ block ∈ blocks, block.IsProper)
    (distinct : (blocks.map Section.name).Nodup) :
    Table.ofText? (blocks.flatMap Section.write) =
      some (blocks.map fun block => (block.name, .table .header block.table)) := by
  have read := @Document.foldlM_sections blocks proper [] [] (by simpa using distinct)
  rw [Option.map_eq_bind] at read
  rw [Table.ofText?, ofText?_expressions proper, Option.bind_eq_bind, Option.bind_some]
  exact read

end Toml

end Gatehouse
