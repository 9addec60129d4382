import Gatehouse.Proofs.Kdl.Quoted
/-!
Written nodes as tokens. Main statement: `tokens_writeAll`, which says that the text of a document
is cut into the tokens that its nodes stand for.
-/

namespace Gatehouse.Kdl

/-- What a text begins with as tokens, and what is left after them. Every token takes characters. -/
inductive Scans : List Char → List Token → List Char → Prop where
  | nil (s : List Char) : Scans s [] s
  | cons {s middle rest : List Char} {token : Token} {tokens : List Token}
      (first : Token.first? s = some (token, middle)) (shorter : middle.length < s.length)
      (more : Scans middle tokens rest) : Scans s (token :: tokens) rest

namespace Scans

variable {s middle rest written : List Char} {token : Token} {tokens more : List Token}

theorem append (first : Scans s tokens middle) (second : Scans middle more rest) :
    Scans s (tokens ++ more) rest := by
  induction first with
  | nil => exact second
  | cons first shorter _ ih => exact .cons first shorter (ih second)

theorem single (first : Token.first? (written ++ rest) = some (token, rest))
    (nonempty : written ≠ []) : Scans (written ++ rest) [token] rest := by
  have positive : 0 < written.length := List.length_pos_iff.2 nonempty
  exact .cons first (by simp only [List.length_append]; omega) (.nil rest)

theorem scan?_eq (scans : Scans s tokens []) {n : Nat} (enough : s.length ≤ n) :
    Token.scan? n s = some tokens := by
  generalize ending : ([] : List Char) = rest at scans
  induction scans generalizing n with
  | nil s =>
    subst ending
    cases n <;> rfl
  | @cons s middle rest token tokens first shorter _ ih =>
    cases n with
    | zero => omega
    | succ n =>
      cases s with
      | nil => simp at shorter
      | cons c s =>
        have left : middle.length ≤ n := by
          simp only [List.length_cons] at enough shorter
          omega
        simp [Token.scan?, first, ih left ending]

end Scans

/-! ### Single tokens -/

theorem first?_of_isWord {c : Char} (word : isWord c = true) (s : List Char) :
    Token.first? (c :: s) =
      (Token.ofWord? ((c :: s).takeWhile isWord)).map (·, (c :: s).dropWhile isWord) := by
  -- A word character is none of the characters that `first?` singles out.
  simp [isWord, isBlank] at word
  simp [Token.first?, word]

theorem first?_space {k : Nat} {rest : List Char} (apart : rest.head?.all (!isSpace ·) = true) :
    Token.first? (List.replicate (k + 1) ' ' ++ rest) = some (.space, rest) := by
  have spaces : ∀ c ∈ List.replicate k ' ', isSpace c = true := by
    intro c member
    rw [List.eq_of_mem_replicate member]
    rfl
  obtain ⟨_, skipped⟩ := Text.span_append spaces rest apart
  calc Token.first? (List.replicate (k + 1) ' ' ++ rest)
      = some (.space, (List.replicate k ' ' ++ rest).dropWhile isSpace) := rfl
    _ = some (.space, rest) := by rw [skipped]

/-- What may follow a name or a string in a written node. -/
def Follows (rest : List Char) : Prop := ∃ s, rest = ' ' :: s ∨ rest = '\n' :: s

theorem first?_writeString (content : String) {rest : List Char} (follows : Follows rest) :
    Token.first? (writeString content ++ rest) = some (.string content, rest) := by
  have apart : rest.head? ≠ some '"' := by
    obtain ⟨s, rfl | rfl⟩ := follows <;> simp
  calc Token.first? (writeString content ++ rest)
      = Token.first? ('"' :: (content.toList.flatMap escape ++ '"' :: rest)) := by
        simp [writeString]
    _ = (quoted? (content.toList.flatMap escape ++ '"' :: rest)).map fun read =>
        (.string (String.ofList read.1), read.2) := rfl
    _ = some (.string content, rest) := by
        rw [quoted?_escape content.toList apart]
        simp

theorem first?_writeName (name : String) {rest : List Char} (follows : Follows rest) :
    Token.first? (writeName name ++ rest) = some (.string name, rest) := by
  unfold writeName
  split
  · next bare =>
    obtain ⟨words, read⟩ := bare
    cases letters : name.toList with
    | nil =>
      rw [letters] at read
      cases read
    | cons c s =>
      rw [letters] at words read
      have stop : rest.head?.all (!isWord ·) = true := by
        obtain ⟨s, rfl | rfl⟩ := follows <;> rfl
      have all := List.all_eq_true.1 words
      obtain ⟨before, after⟩ := Text.span_append all rest stop
      rw [List.cons_append, first?_of_isWord (all c List.mem_cons_self), ← List.cons_append,
        before, after, read]
      rfl
  · exact first?_writeString name follows

/-- A written name begins with a character that is neither a space nor a byte-order mark. -/
theorem writeName_begins (name : String) :
    ∃ c s, writeName name = c :: s ∧ isSpace c = false ∧ c ≠ '\uFEFF' := by
  unfold writeName
  split
  · next bare =>
    obtain ⟨words, read⟩ := bare
    cases letters : name.toList with
    | nil =>
      rw [letters] at read
      cases read
    | cons c s =>
      rw [letters] at words
      have word := List.all_eq_true.1 words c List.mem_cons_self
      refine ⟨c, s, rfl, ?_, ?_⟩
      · simp [isWord, isBlank] at word
        exact word.1.1.1
      · rintro rfl
        exact absurd word (by decide)
  · exact ⟨'"', _, rfl, rfl, by decide⟩

/-! ### Tokens of nodes -/

/-- A text by its position alone, without a type. -/
def Entry.IsText (entry : Entry) : Prop := ∃ content, entry = ⟨none, none, .string content⟩

def Value.token : Value → Token
  | string content => .string content
  | number written => .number written
  | keyword name => .keyword name

def Entry.tokens (entry : Entry) : List Token := [.space, entry.value.token]

def indentTokens (depth : Nat) : List Token := if depth = 0 then [] else [.space]

namespace Node

mutual

/-- Whether a node has nothing but names and texts in it. -/
def IsPlain : Node → Prop
  | mk type _ entries block => type = none ∧ (∀ entry ∈ entries, entry.IsText) ∧ BlockIsPlain block

def BlockIsPlain : Option (List Node) → Prop
  | none => True
  | some nodes => ArePlain nodes

def ArePlain : List Node → Prop
  | [] => True
  | node :: rest => node.IsPlain ∧ ArePlain rest

end

mutual

/-- The tokens of a written node, without the spaces before it and the line end after it. -/
def tokens (depth : Nat) : Node → List Token
  | mk _ name entries block =>
    .string name :: (entries.flatMap Entry.tokens ++ blockTokens depth block)

def blockTokens (depth : Nat) : Option (List Node) → List Token
  | none => []
  | some nodes =>
    .space :: .openBrace :: .newline ::
      (allTokens (depth + 1) nodes ++ (indentTokens depth ++ [.closeBrace]))

def allTokens (depth : Nat) : List Node → List Token
  | [] => []
  | node :: rest =>
    indentTokens depth ++ (node.tokens depth ++ .newline :: allTokens depth rest)

end

end Node

theorem scans_indent (depth : Nat) {rest : List Char} (apart : rest.head?.all (!isSpace ·) = true) :
    Scans (indent depth ++ rest) (indentTokens depth) rest := by
  cases depth with
  | zero => exact .nil rest
  | succ depth =>
    have spaces : indent (depth + 1) = List.replicate (4 * depth + 3 + 1) ' ' := rfl
    rw [spaces]
    exact .single (first?_space apart) (by simp)

theorem scans_space {rest : List Char} (apart : rest.head?.all (!isSpace ·) = true) :
    Scans (' ' :: rest) [.space] rest := by
  have first : Token.first? (List.replicate (0 + 1) ' ' ++ rest) = some (.space, rest) :=
    first?_space apart
  exact .single first (by simp)

theorem scans_newline (rest : List Char) : Scans ('\n' :: rest) [.newline] rest :=
  .cons (by simp [Token.first?, isSpace, isNewline]) (Nat.lt_succ_self _) (.nil rest)

theorem follows_entries (entries : List Entry) {rest : List Char} (follows : Follows rest) :
    Follows (entries.flatMap (fun entry => ' ' :: entry.write) ++ rest) := by
  cases entries with
  | nil => exact follows
  | cons entry entries => exact ⟨_, Or.inl rfl⟩

theorem scans_entries {entries : List Entry} (texts : ∀ entry ∈ entries, entry.IsText)
    {rest : List Char} (follows : Follows rest) :
    Scans (entries.flatMap (fun entry => ' ' :: entry.write) ++ rest)
      (entries.flatMap Entry.tokens) rest := by
  induction entries with
  | nil => exact .nil rest
  | cons entry entries ih =>
    obtain ⟨⟨content, rfl⟩, later⟩ := List.forall_mem_cons.1 texts
    have first := first?_writeString content (follows_entries entries follows)
    have string := Scans.single first (by simp [writeString])
    have space (s : List Char) : Scans (' ' :: (writeString content ++ s)) [.space]
        (writeString content ++ s) := scans_space rfl
    simpa only [List.flatMap_cons, Entry.write, Entry.tokens, Value.token, writeType, Value.write,
      List.nil_append, List.cons_append, List.append_assoc] using
      (space _).append (string.append (ih later))

namespace Node

theorem follows_block (depth : Nat) (block : Option (List Node)) (rest : List Char) :
    Follows (writeBlock depth block ++ '\n' :: rest) := by
  cases block with
  | none => exact ⟨_, Or.inr rfl⟩
  | some nodes => exact ⟨_, Or.inl rfl⟩

mutual

theorem scans_write (depth : Nat) (node : Node) (plain : node.IsPlain) (rest : List Char) :
    Scans (node.write depth ++ rest) (indentTokens depth ++ (node.tokens depth ++ [.newline]))
      rest := by
  obtain ⟨type, name, entries, block⟩ := node
  obtain ⟨rfl, texts, plainBlock⟩ := plain
  have ends : Follows (writeBlock depth block ++ '\n' :: rest) := follows_block depth block rest
  obtain ⟨c, s, begins, apart, _⟩ := writeName_begins name
  have indented (s : List Char) : Scans (indent depth ++ (writeName name ++ s))
      (indentTokens depth) (writeName name ++ s) :=
    scans_indent depth (by simp [begins, apart])
  have named := Scans.single (first?_writeName name (follows_entries entries ends))
    (by simp [begins])
  have inside := scans_writeBlock depth block plainBlock ('\n' :: rest)
  simpa only [write, writeType, tokens, List.append_assoc, List.nil_append, List.cons_append] using
    (indented _).append (named.append ((scans_entries texts ends).append
      (inside.append (scans_newline rest))))

theorem scans_writeBlock (depth : Nat) (block : Option (List Node)) (plain : BlockIsPlain block)
    (rest : List Char) : Scans (writeBlock depth block ++ rest) (blockTokens depth block) rest := by
  cases block with
  | none => exact .nil rest
  | some nodes =>
    have space (s : List Char) : Scans (' ' :: '{' :: s) [.space] ('{' :: s) := scans_space rfl
    have opening (s : List Char) : Scans ('{' :: s) [.openBrace] s :=
      .cons rfl (Nat.lt_succ_self _) (.nil s)
    have closing : Scans ('}' :: rest) [.closeBrace] rest :=
      .cons rfl (Nat.lt_succ_self _) (.nil rest)
    have indented : Scans (indent depth ++ '}' :: rest) (indentTokens depth) ('}' :: rest) :=
      scans_indent depth rfl
    have inside := scans_writeAll (depth + 1) nodes plain (indent depth ++ '}' :: rest)
    have brace : " \x7b\n".toList = [' ', '{', '\n'] := rfl
    simpa only [writeBlock, blockTokens, brace, List.append_assoc, List.nil_append,
      List.cons_append] using
      (space _).append ((opening _).append ((scans_newline _).append
        (inside.append (indented.append closing))))

theorem scans_writeAll (depth : Nat) (nodes : List Node) (plain : ArePlain nodes)
    (rest : List Char) : Scans (writeAll depth nodes ++ rest) (allTokens depth nodes) rest := by
  cases nodes with
  | nil => exact .nil rest
  | cons node nodes =>
    have first := scans_write depth node plain.1 (writeAll depth nodes ++ rest)
    have later := scans_writeAll depth nodes plain.2 rest
    simpa only [writeAll, allTokens, List.append_assoc, List.nil_append, List.cons_append] using
      first.append later

end

theorem head?_writeAll {node : Node} (plain : node.IsPlain) (nodes : List Node) :
    (writeAll 0 (node :: nodes)).head? = (writeName node.name).head? := by
  obtain ⟨type, name, entries, block⟩ := node
  obtain ⟨rfl, _⟩ := plain
  obtain ⟨c, s, begins, _⟩ := writeName_begins name
  simp [writeAll, write, indent, writeType, Node.name, begins]

/-- The text of a document is cut into the tokens of its nodes. It does not begin with a byte-order
mark, which would be skipped. -/
theorem tokens_writeAll (nodes : List Node) (plain : ArePlain nodes) :
    Token.ofText? (writeAll 0 nodes) = some (allTokens 0 nodes) := by
  have scans : Scans (writeAll 0 nodes) (allTokens 0 nodes) [] := by
    simpa only [List.append_nil] using scans_writeAll 0 nodes plain []
  have unmarked : (writeAll 0 nodes).head? ≠ some '\uFEFF' := by
    cases nodes with
    | nil => nofun
    | cons node nodes =>
      obtain ⟨c, s, begins, _, other⟩ := writeName_begins node.name
      simpa [head?_writeAll plain.1, begins] using other
  unfold Token.ofText?
  split
  next text marked => simp [marked] at unmarked
  next text => exact scans.scan?_eq (Nat.le_refl _)

end Node

end Gatehouse.Kdl
