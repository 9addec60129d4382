import Gatehouse.Toml.Quoted
import Gatehouse.Toml.Value
/-!
The expressions that a TOML document consists of: headers, and keys with their values. The functions
here read what begins a text and answer it together with what follows.
-/

namespace Gatehouse.Toml

structure Key where
  path : List String
  last : String
  deriving DecidableEq

inductive Expression where
  | header (key : Key)
  | element (key : Key)
  | assignment (key : Key) (value : Value)

/-- Keys have fewer parts than this, and arrays and tables are nested less deeply. -/
def maxDepth : Nat := 80

def skipBlanks (s : List Char) : List Char := s.dropWhile isBlank

def skipLines : (comment : Bool) → List Char → List Char
  | _, [] => []
  | true, c :: s => skipLines (c != '\n') s
  | false, c :: s =>
    if c = '#' then skipLines true s
    else if isBlankOrNewline c then skipLines false s
    else c :: s

def endLine? (s : List Char) : Option (List Char) :=
  match skipBlanks s with
  | [] => some []
  | '\n' :: s => some s
  | '#' :: s => some ((s.dropWhile (· != '\n')).drop 1)
  | _ => none

def part? (s : List Char) : Option (String × List Char) :=
  match s with
  | '"' :: _ | '\'' :: _ => (short? s).map fun (content, rest) => (String.ofList content, rest)
  | _ =>
    let bare := s.takeWhile isBare
    if bare.isEmpty then none else some (String.ofList bare, s.dropWhile isBare)

def key? : (n : Nat) → List Char → Option (Key × List Char)
  | 0, s => do
    let (part, rest) ← part? (skipBlanks s)
    match skipBlanks rest with
    | '.' :: _ => none
    | rest => some (⟨[], part⟩, rest)
  | n + 1, s => do
    let (part, rest) ← part? (skipBlanks s)
    match skipBlanks rest with
    | '.' :: rest =>
      let (key, rest) ← key? n rest
      return ({ key with path := part :: key.path }, rest)
    | rest => some (⟨[], part⟩, rest)

def maxKey : Nat := maxDepth - 2

def endsScalar (c : Char) : Bool := isBlankOrNewline c || c ∈ [',', ']', '}', '#']

def scalar? (s : List Char) : Option Value :=
  if s = ['t', 'r', 'u', 'e'] then some (.boolean true)
  else if s = ['f', 'a', 'l', 's', 'e'] then some (.boolean false)
  else (Moment.ofText? s).map .moment <|> (float? s).map .float <|> (integer? s).map .integer

/-- A value that is neither a string nor an array nor a table. After a date a space and a time may
follow. -/
def bare? (s : List Char) : Option (Value × List Char) :=
  let word := s.takeWhile (!endsScalar ·)
  let rest := s.dropWhile (!endsScalar ·)
  let short := (scalar? word).map (·, rest)
  match Date.read? word, rest with
  | some (_, []), ' ' :: s =>
    let long := word ++ ' ' :: s.takeWhile (!endsScalar ·)
    ((Moment.ofText? long).map (.moment ·, s.dropWhile (!endsScalar ·))) <|> short
  | _, _ => short

def items? (value? : List Char → Option (Value × List Char)) :
    (n : Nat) → List Char → Option (List Value × List Char)
  | 0, _ => none
  | n + 1, s =>
    match skipLines false s with
    | ']' :: rest => some ([], rest)
    | s => do
      let (value, rest) ← value? s
      match skipLines false rest with
      | ',' :: rest => do
        let (values, rest) ← items? value? n rest
        return (value :: values, rest)
      | ']' :: rest => some ([value], rest)
      | _ => none

def assignment? (value? : List Char → Option (Value × List Char)) (s : List Char) :
    Option ((Key × Value) × List Char) := do
  match ← key? maxKey s with
  | (key, '=' :: rest) =>
    let (value, rest) ← value? (skipBlanks rest)
    return ((key, value), skipBlanks rest)
  | _ => none

def entries? (value? : List Char → Option (Value × List Char)) :
    (n : Nat) → List Char → Option (List (Key × Value) × List Char)
  | 0, _ => none
  | n + 1, s => do
    let (entry, rest) ← assignment? value? s
    match rest with
    | ',' :: rest => do
      let (entries, rest) ← entries? value? n rest
      return (entry :: entries, rest)
    | '}' :: rest => some ([entry], rest)
    | _ => none

def inline? (value? : List Char → Option (Value × List Char)) (s : List Char) :
    Option (Value × List Char) := do
  let (entries, rest) ← match skipBlanks s with
    | '}' :: rest => some ([], rest)
    | s => entries? value? (s.length + 1) s
  let table ← entries.foldlM (fun table (key, value) =>
    addValue key.path key.last value .closed table) []
  return (.table .closed table, rest)

/-- A value in which arrays and tables are nested at most `depth` times. -/
def value? : (depth : Nat) → List Char → Option (Value × List Char)
  | 0, '[' :: _ | 0, '{' :: _ => none
  | depth + 1, '[' :: s =>
    (items? (value? depth) (s.length + 1) s).map fun (items, rest) => (.array false items, rest)
  | depth + 1, '{' :: s => inline? (value? depth) s
  | _, '"' :: s => (quoted? ('"' :: s)).map fun (content, rest) =>
    (.string (String.ofList content), rest)
  | _, '\'' :: s => (quoted? ('\'' :: s)).map fun (content, rest) =>
    (.string (String.ofList content), rest)
  | _, s => bare? s

namespace Expression

def first? (s : List Char) : Option (Expression × List Char) :=
  match s with
  | '[' :: '[' :: s => do
    match ← key? maxKey s with
    | (key, ']' :: ']' :: rest) => some (element key, rest)
    | _ => none
  | '[' :: s => do
    match ← key? maxKey s with
    | (key, ']' :: rest) => some (header key, rest)
    | _ => none
  | s => (assignment? (value? (maxDepth - 1)) s).map fun ((key, value), rest) =>
    (assignment key value, rest)

def scan? : (n : Nat) → List Char → Option (List Expression)
  | n, s =>
    match n, skipLines false s with
    | _, [] => some []
    | 0, _ => none
    | n + 1, s => do
      let (expression, rest) ← first? s
      return expression :: (← scan? n (← endLine? rest))

/-- The expressions of a document, each of which has at least one character. A byte-order mark may
stand at the start. -/
def ofText? (s : List Char) : Option (List Expression) := do
  let s ← lines? s
  let s := match s with
    | '\uFEFF' :: s => s
    | s => s
  scan? s.length s

end Expression

end Gatehouse.Toml
