import Gatehouse.Text.Affix
import Gatehouse.Text.Digit
import Gatehouse.Toml.Character
/-!
Strings in TOML. Between double quotes a backslash begins an escape; between single quotes every
character stands for itself. Three quotes begin and end a string over several lines, whose first
line end does not count.
-/

namespace Gatehouse.Toml

open Text

/-- What the characters read before mean for the next one. -/
inductive Escape where
  | plain
  | started
  /-- In a code point, with as many digits to come and what those before denote. -/
  | digits (left code : Nat)
  /-- After a backslash that ends a line, with that line end still to come. -/
  | lineEnd
  | blanks
  deriving DecidableEq

def escaped? (c : Char) : Option Char :=
  ([('"', '"'), ('\\', '\\'), ('b', '\x08'), ('f', '\x0c'), ('n', '\n'), ('r', '\r'),
    ('t', '\t')] : List (Char × Char)).lookup c

/-- What follows the end of a string over several lines. Up to two quotes before the last three
belong to the string. -/
def afterQuotes (quote : Char) : List Char → List Char × List Char
  | a :: b :: s =>
    if a = quote then if b = quote then ([a, b], s) else ([a], b :: s) else ([], a :: b :: s)
  | [a] => if a = quote then ([a], []) else ([], [a])
  | [] => ([], [])

def content? (long : Bool) : Escape → List Char → Option (List Char × List Char)
  | _, [] => none
  | .started, c :: s =>
    if c = 'u' then content? long (.digits 4 0) s
    else if c = 'U' then content? long (.digits 8 0) s
    else if long ∧ isBlank c = true then content? long .lineEnd s
    else if long ∧ c = '\n' then content? long .blanks s
    else do
      let char ← escaped? c
      let (content, rest) ← content? long .plain s
      return (char :: content, rest)
  | .digits left code, c :: s => do
    let code := code * 16 + (← digitValue? 16 c)
    if 1 < left then content? long (.digits (left - 1) code) s
    else if code.isValidChar then do
      let (content, rest) ← content? long .plain s
      return (Char.ofNat code :: content, rest)
    else none
  | .lineEnd, c :: s =>
    if isBlank c then content? long .lineEnd s
    else if c = '\n' then content? long .blanks s
    else none
  | state, c :: s =>
    if state = .blanks ∧ isBlankOrNewline c = true then content? long .blanks s
    else if c = '\\' then content? long .started s
    else if long then
      match afterStart? ['"', '"', '"'] (c :: s) with
      | some rest => some (afterQuotes '"' rest)
      | none => do
        let (content, rest) ← content? long .plain s
        return (c :: content, rest)
    else if c = '"' then some ([], s)
    else if c = '\n' then none
    else do
      let (content, rest) ← content? long .plain s
      return (c :: content, rest)

def short? : List Char → Option (List Char × List Char)
  | '"' :: s => content? false .plain s
  | '\'' :: s => do
    let (content, rest) ← cutAt? ['\''] s
    if '\n' ∈ content then none else some (content, rest)
  | _ => none

def dropNewline : List Char → List Char
  | '\n' :: s => s
  | s => s

def quoted? : List Char → Option (List Char × List Char)
  | '"' :: '"' :: '"' :: s => content? true .plain (dropNewline s)
  | '\'' :: '\'' :: '\'' :: s => do
    let (content, rest) ← cutAt? ['\'', '\'', '\''] (dropNewline s)
    let (quotes, rest) := afterQuotes '\'' rest
    return (content ++ quotes, rest)
  | s => short? s

end Gatehouse.Toml
