import Gatehouse.Kdl.Number
import Gatehouse.Kdl.Quoted
/-!
A KDL document as a list of tokens. Comments are tokens of the blank that they count as: one that
runs to the end of its line is a line end, one with both ends marked is a space.
-/

namespace Gatehouse.Kdl

open Text

inductive Token where
  | space
  | newline
  | semicolon
  | openBrace
  | closeBrace
  | openParen
  | closeParen
  | equals
  /-- The mark that takes the next node, entry or block out of the document. -/
  | slashdash
  | string (content : String)
  | number (written : String)
  | keyword (name : String)
  deriving DecidableEq

namespace Token

/-- The rest after a comment that is closed by its own mark, where `depth` more comments are open
inside it. -/
def afterComment? : (depth : Nat) → List Char → Option (List Char)
  | _, [] => none
  | 0, '*' :: '/' :: s => some s
  | depth + 1, '*' :: '/' :: s => afterComment? depth s
  | depth, '/' :: '*' :: s => afterComment? (depth + 1) s
  | depth, _ :: s => afterComment? depth s

def afterLine (s : List Char) : List Char :=
  let rest := s.dropWhile (!isNewline ·)
  (afterNewline? rest).getD []

def skipSpaces? : (n : Nat) → List Char → Option (List Char)
  | 0, s => some s
  | n + 1, s =>
    match s.dropWhile isSpace with
    | '/' :: '*' :: rest => do skipSpaces? n (← afterComment? 0 rest)
    | rest => some rest

/-- The rest of a continued line, after its backslash: nothing but spaces may stand before the line
end, which is skipped with them. -/
def afterContinuation? (s : List Char) : Option (List Char) := do
  match ← skipSpaces? s.length s with
  | [] => some []
  | '/' :: '/' :: rest => some (afterLine rest)
  | rest => afterNewline? rest

/-- A run of word characters: a number if it begins like one, and else a string that is not one of
the keywords. -/
def ofWord? (word : List Char) : Option Token :=
  let content := String.ofList word
  if beginsLikeNumber word then if isNumber word then some (number content) else none
  else if word = [] ∨ content ∈ reserved then none
  else some (string content)

def afterHash? (s : List Char) : Option (Token × List Char) :=
  let hashes := '#' :: s.takeWhile (· == '#')
  match s.dropWhile (· == '#') with
  | '"' :: rest =>
    (raw? hashes rest).map fun (content, rest) => (string (String.ofList content), rest)
  | rest =>
    let name := String.ofList (rest.takeWhile isWord)
    if hashes = ['#'] ∧ name ∈ reserved then some (keyword name, rest.dropWhile isWord) else none

def first? : List Char → Option (Token × List Char)
  | '/' :: '-' :: s => some (slashdash, s)
  | '/' :: '/' :: s => some (newline, afterLine s)
  | '/' :: '*' :: s => (afterComment? 0 s).map (space, ·)
  | '\\' :: s => (afterContinuation? s).map (space, ·)
  | ';' :: s => some (semicolon, s)
  | '{' :: s => some (openBrace, s)
  | '}' :: s => some (closeBrace, s)
  | '(' :: s => some (openParen, s)
  | ')' :: s => some (closeParen, s)
  | '=' :: s => some (equals, s)
  | '"' :: s => (quoted? s).map fun (content, rest) => (string (String.ofList content), rest)
  | '#' :: s => afterHash? s
  | c :: s =>
    if isSpace c then some (space, s.dropWhile isSpace)
    else if isNewline c then some (newline, s)
    else (ofWord? ((c :: s).takeWhile isWord)).map (·, (c :: s).dropWhile isWord)
  | [] => none

def scan? : (n : Nat) → List Char → Option (List Token)
  | _, [] => some []
  | 0, _ => none
  | n + 1, s => do
    let (token, rest) ← first? s
    return token :: (← scan? n rest)

/-- The tokens of a text, each of which has at least one character. A byte-order mark may stand at
the start. -/
def ofText? (s : List Char) : Option (List Token) :=
  let s := match s with
    | '\uFEFF' :: s => s
    | s => s
  scan? s.length s

def isBlank : Token → Bool
  | space | newline => true
  | _ => false

end Token

end Gatehouse.Kdl
