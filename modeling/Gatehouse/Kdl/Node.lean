import Gatehouse.Kdl.Token
/-!
The nodes of a KDL document, and how they are read from its tokens.
-/

namespace Gatehouse.Kdl

inductive Value where
  | string (content : String)
  | number (written : String)
  | keyword (name : String)
  deriving DecidableEq

structure Entry where
  key : Option String
  type : Option String
  value : Value
  deriving DecidableEq

/-- A node. A node without a block and one with an empty block are told apart. -/
inductive Node where
  | mk (type : Option String) (name : String) (entries : List Entry) (block : Option (List Node))

namespace Node

def name : Node → String
  | mk _ name _ _ => name

def entries : Node → List Entry
  | mk _ _ entries _ => entries

def children : Node → List Node
  | mk _ _ _ block => block.getD []

def firstString? (node : Node) : Option String :=
  match node.entries.find? (·.key.isNone) with
  | some ⟨_, _, .string content⟩ => some content
  | _ => none

def dashList (node : Node) : List String :=
  (node.children.filter (·.name == "-")).filterMap firstString?

end Node

namespace Token

def skipSpaces (tokens : List Token) : List Token := tokens.dropWhile (· == space)

def skipBlanks (tokens : List Token) : List Token := tokens.dropWhile isBlank

def type? : List Token → Option (Option String × List Token)
  | openParen :: rest =>
    match skipSpaces rest with
    | string content :: rest =>
      match skipSpaces rest with
      | closeParen :: rest => some (some content, rest)
      | _ => none
    | _ => none
  | rest => some (none, rest)

def value? (tokens : List Token) : Option ((Option String × Value) × List Token) := do
  let (type, rest) ← type? tokens
  match (if type.isSome then skipSpaces rest else rest) with
  | string content :: rest => some ((type, .string content), rest)
  | number written :: rest => some ((type, .number written), rest)
  | keyword name :: rest => some ((type, .keyword name), rest)
  | _ => none

def entry? (tokens : List Token) : Option (Entry × List Token) := do
  let argument := (value? tokens).map fun ((type, value), rest) => (⟨none, type, value⟩, rest)
  match tokens with
  | string key :: rest =>
    match skipSpaces rest with
    | equals :: rest => do
      let ((type, value), rest) ← value? (skipSpaces rest)
      return (⟨some key, type, value⟩, rest)
    | _ => argument
  | _ => argument

abbrev Body := List Entry × Option (List Node) × List Token

mutual

/-- The nodes up to the end of the block or the document. A node ends with its line, with a
semicolon or with the block; one that a slashdash takes out must not be followed by a semicolon. -/
def nodes? : (fuel : Nat) → List Token → Option (List Node × List Token)
  | 0, _ => none
  | n + 1, tokens =>
    match skipBlanks tokens with
    | [] => some ([], [])
    | closeBrace :: rest => some ([], closeBrace :: rest)
    | slashdash :: rest => do
      let (_, rest) ← node? n (skipBlanks rest)
      nodes? n rest
    | tokens => do
      let (node, rest) ← node? n tokens
      let (later, rest) ← match rest with
        | [] => some ([], [])
        | newline :: rest | semicolon :: rest => nodes? n rest
        | closeBrace :: rest => some ([], closeBrace :: rest)
        | _ => none
      return (node :: later, rest)

def node? : (fuel : Nat) → List Token → Option (Node × List Token)
  | 0, _ => none
  | n + 1, tokens => do
    let (type, rest) ← type? tokens
    match (if type.isSome then skipSpaces rest else rest) with
    | string name :: rest => do
      let (entries, block, rest) ← body? n false rest
      return (⟨type, name, entries, block⟩, rest)
    | _ => none

/-- What follows the name of a node. Every entry stands after a space. `closing` says that a block
taken out was read, after which no more entries may come. -/
def body? : (fuel : Nat) → (closing : Bool) → List Token → Option Body
  | 0, _, _ => none
  | n + 1, closing, tokens =>
    let spaced := tokens.head? == some space
    let entries := !closing && spaced
    match skipSpaces tokens with
    | openBrace :: rest => do
      let (children, rest) ← block? n rest
      return ([], some children, ← afterBlock? n rest)
    | slashdash :: rest =>
      match skipBlanks rest with
      | openBrace :: rest => do
        let (_, rest) ← block? n rest
        body? n true rest
      | rest =>
        if entries then do
          let (_, rest) ← entry? rest
          body? n closing rest
        else none
    | rest =>
      match rest with
      | string _ :: _ | number _ :: _ | keyword _ :: _ | openParen :: _ =>
        if entries then do
          let (entry, rest) ← entry? rest
          let (more, block, rest) ← body? n closing rest
          return (entry :: more, block, rest)
        else none
      | _ => some ([], none, rest)

def block? : (fuel : Nat) → List Token → Option (List Node × List Token)
  | 0, _ => none
  | n + 1, tokens => do
    let (nodes, rest) ← nodes? n tokens
    match rest with
    | closeBrace :: rest => some (nodes, rest)
    | _ => none

def afterBlock? : (fuel : Nat) → List Token → Option (List Token)
  | 0, _ => none
  | n + 1, tokens =>
    match skipSpaces tokens with
    | slashdash :: rest =>
      match skipBlanks rest with
      | openBrace :: rest => do
        let (_, rest) ← block? n rest
        afterBlock? n rest
      | _ => none
    | rest => some rest

end

end Token

/-- The nodes of a document. Between two steps of reading at least one token goes, three steps apart
at most, which bounds their number. -/
def Node.ofTokens? (tokens : List Token) : Option (List Node) :=
  match Token.nodes? (3 * tokens.length + 3) tokens with
  | some (nodes, []) => some nodes
  | _ => none

def Node.ofText? (s : List Char) : Option (List Node) := do Node.ofTokens? (← Token.ofText? s)

end Gatehouse.Kdl
