import Gatehouse.Proofs.Kdl.Token
/-!
Nodes read from the tokens that they are written as. Main statement: `ofText?_writeAll`, which
says that a written document is read back as its nodes, whatever their number and depth.
-/

namespace Gatehouse.Kdl

open Token

variable {n : Nat} {rest : List Token}

/-! ### Steps of reading -/

/-- Where a list of nodes ends: with the document, or before the brace that closes its block. -/
def EndsNodes (tokens : List Token) : Prop := tokens = [] ∨ ∃ more, tokens = closeBrace :: more

theorem nodes?_end {tail : List Token} (ends : EndsNodes (skipBlanks tail)) :
    nodes? (n + 1) tail = some ([], skipBlanks tail) := by
  obtain none | ⟨more, close⟩ := ends
  · simp [nodes?, none]
  · simp [nodes?, close]

theorem nodes?_node {tokens more later : List Token} {name : String} {node : Node}
    {nodes : List Node} (begins : skipBlanks tokens = string name :: more)
    (first : node? n (string name :: more) = some (node, newline :: later))
    (others : nodes? n later = some (nodes, rest)) :
    nodes? (n + 1) tokens = some (node :: nodes, rest) := by
  simp [nodes?, begins, first, others]

theorem nodes?_newline (n : Nat) (tokens : List Token) :
    nodes? n (newline :: tokens) = nodes? n tokens := by
  cases n with
  | zero => rfl
  | succ n => rfl

theorem node?_string {name : String} {tokens : List Token} {body : Body}
    (read : body? n false tokens = some body) :
    node? (n + 1) (string name :: tokens) = some (⟨none, name, body.1, body.2.1⟩, body.2.2) := by
  simp [node?, type?, read]

theorem entry?_string {content : String} {tokens : List Token}
    (argument : (skipSpaces tokens).head? ≠ some equals) :
    entry? (string content :: tokens) = some (⟨none, none, .string content⟩, tokens) := by
  unfold entry?
  split
  next key more same =>
    obtain ⟨rfl, rfl⟩ : content = key ∧ tokens = more := by simpa using same
    split
    next after assigned => simp [assigned] at argument
    next => simp [value?, type?]
  next other => exact absurd rfl (other content tokens)

theorem body?_text {content : String} {tokens : List Token} {body : Body}
    (argument : (skipSpaces tokens).head? ≠ some equals)
    (read : body? n false tokens = some body) :
    body? (n + 1) false (space :: string content :: tokens) =
      some (⟨none, none, .string content⟩ :: body.1, body.2) := by
  simp [body?, skipSpaces, entry?_string argument, read]

theorem body?_end (rest : List Token) :
    body? (n + 1) false (newline :: rest) = some ([], none, newline :: rest) := by
  simp [body?, skipSpaces]

theorem body?_block {tokens later : List Token} {nodes : List Node}
    (read : block? (n + 1) tokens = some (nodes, newline :: later)) :
    body? (n + 2) false (space :: openBrace :: tokens) =
      some ([], some nodes, newline :: later) := by
  have ended : afterBlock? (n + 1) (newline :: later) = some (newline :: later) := by
    simp [afterBlock?, skipSpaces]
  simp [body?, skipSpaces, read, ended]

/-! ### Whole nodes -/

namespace Node

theorem skipBlanks_indentTokens (depth : Nat) (tokens : List Token) :
    skipBlanks (indentTokens depth ++ tokens) = skipBlanks tokens := by
  unfold indentTokens
  split <;> rfl

/-- Nothing that a text may stand before in a node makes a key of it. -/
theorem argument_in_body (depth : Nat) (entries : List Entry) (block : Option (List Node))
    (rest : List Token) :
    (skipSpaces (entries.flatMap Entry.tokens ++
      (blockTokens depth block ++ newline :: rest))).head? ≠ some equals := by
  cases entries with
  | nil => cases block <;> simp [blockTokens, skipSpaces]
  | cons entry entries =>
    obtain ⟨key, type, value⟩ := entry
    cases value <;> simp [Entry.tokens, Value.token, skipSpaces]

theorem body?_entries {depth : Nat} {entries : List Entry} {block : Option (List Node)}
    (texts : ∀ entry ∈ entries, entry.IsText)
    (read : ∀ n, 3 * (blockTokens depth block).length + 1 ≤ n →
      body? n false (blockTokens depth block ++ newline :: rest) =
        some ([], block, newline :: rest))
    (enough : 3 * (entries.flatMap Entry.tokens ++ blockTokens depth block).length + 1 ≤ n) :
    body? n false (entries.flatMap Entry.tokens ++ (blockTokens depth block ++ newline :: rest)) =
      some (entries, block, newline :: rest) := by
  induction entries generalizing n with
  | nil => exact read n enough
  | cons entry entries ih =>
    obtain ⟨⟨content, rfl⟩, later⟩ := List.forall_mem_cons.1 texts
    simp only [List.flatMap_cons, Entry.tokens, List.length_append, List.length_cons,
      List.length_nil] at enough
    obtain ⟨n, rfl⟩ : ∃ m, n = m + 1 := ⟨n - 1, by omega⟩
    have others := ih later (n := n) (by rw [List.length_append]; omega)
    exact body?_text (argument_in_body depth entries block rest) others

mutual

/-- Each token is worth three steps of reading, and there is one step more for every list of nodes
and every body. -/
theorem node?_tokens (depth : Nat) (node : Node) (plain : node.IsPlain) (rest : List Token)
    (n : Nat) (enough : 3 * (node.tokens depth).length ≤ n) :
    node? n (node.tokens depth ++ newline :: rest) = some (node, newline :: rest) := by
  obtain ⟨type, name, entries, block⟩ := node
  obtain ⟨rfl, texts, plainBlock⟩ := plain
  simp only [tokens, List.length_cons] at enough
  obtain ⟨n, rfl⟩ : ∃ m, n = m + 1 := ⟨n - 1, by omega⟩
  have body := body?_entries texts (body?_blockTokens depth block plainBlock rest)
    (n := n) (by omega)
  rw [tokens, List.cons_append, List.append_assoc]
  exact node?_string body

theorem body?_blockTokens (depth : Nat) (block : Option (List Node)) (plain : BlockIsPlain block)
    (rest : List Token) (n : Nat) (enough : 3 * (blockTokens depth block).length + 1 ≤ n) :
    body? n false (blockTokens depth block ++ newline :: rest) =
      some ([], block, newline :: rest) := by
  cases block with
  | none =>
    obtain ⟨n, rfl⟩ : ∃ m, n = m + 1 := ⟨n - 1, by omega⟩
    exact body?_end rest
  | some nodes =>
    simp only [blockTokens, List.length_cons, List.length_append, List.length_nil] at enough
    obtain ⟨n, rfl⟩ : ∃ m, n = m + 3 := ⟨n - 3, by omega⟩
    have closes : skipBlanks (indentTokens depth ++ closeBrace :: newline :: rest) =
        closeBrace :: newline :: rest := skipBlanks_indentTokens depth _
    have inside := nodes?_allTokens (depth + 1) nodes plain
      (indentTokens depth ++ closeBrace :: newline :: rest) (n + 1) (Or.inr ⟨_, closes⟩) (by omega)
    have children : block? (n + 2) (newline :: (allTokens (depth + 1) nodes ++
        (indentTokens depth ++ closeBrace :: newline :: rest))) =
          some (nodes, newline :: rest) := by
      simp [block?, nodes?_newline, inside, closes]
    simpa [blockTokens] using body?_block children

theorem nodes?_allTokens (depth : Nat) (nodes : List Node) (plain : ArePlain nodes)
    (tail : List Token) (n : Nat) (ends : EndsNodes (skipBlanks tail))
    (enough : 3 * (allTokens depth nodes).length + 1 ≤ n) :
    nodes? n (allTokens depth nodes ++ tail) = some (nodes, skipBlanks tail) := by
  obtain ⟨n, rfl⟩ : ∃ m, n = m + 1 := ⟨n - 1, by omega⟩
  cases nodes with
  | nil => exact nodes?_end ends
  | cons node nodes =>
    simp only [allTokens, List.length_cons, List.length_append] at enough
    have first := node?_tokens depth node plain.1 (allTokens depth nodes ++ tail) n (by omega)
    have others := nodes?_allTokens depth nodes plain.2 tail n ends (by omega)
    obtain ⟨name, more, named⟩ : ∃ name more, node.tokens depth = string name :: more := by
      obtain ⟨type, name, entries, block⟩ := node
      exact ⟨name, _, rfl⟩
    rw [named, List.cons_append] at first
    have begins : skipBlanks (indentTokens depth ++
        (string name :: (more ++ newline :: (allTokens depth nodes ++ tail)))) =
          string name :: (more ++ newline :: (allTokens depth nodes ++ tail)) :=
      skipBlanks_indentTokens depth _
    simpa [allTokens, named] using nodes?_node begins first others

end

/-- A written document is read back as its nodes. -/
theorem ofText?_writeAll (nodes : List Node) (plain : ArePlain nodes) :
    ofText? (writeAll 0 nodes) = some nodes := by
  have read := nodes?_allTokens 0 nodes plain [] (3 * (allTokens 0 nodes).length + 3)
    (Or.inl rfl) (by omega)
  rw [List.append_nil] at read
  simp [ofText?, tokens_writeAll nodes plain, ofTokens?, read, skipBlanks]

end Node

end Gatehouse.Kdl
