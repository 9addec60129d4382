import Gatehouse.Xml.Doctype
/-!
A document as a list of lexemes: tags, runs of text, comments and the like, with references still
unread. A place that is no markup gives the lexeme `fault`, which ends the list, so that what stands
before it can still be used alone.
-/

namespace Gatehouse.Xml

open Text

abbrev RawAttribute := QName × List Char

inductive Lexeme where
  | text (raw : List Char)
  | marked (content : List Char)
  | comment (content : List Char)
  | instruction (target : List Char)
  | doctype (entities : Entities)
  | opening (name : QName) (attributes : List RawAttribute)
  | empty (name : QName) (attributes : List RawAttribute)
  | closing (name : QName)
  /-- An opening tag cut off by the end of the text, right after its name or an attribute. -/
  | cut (name : QName) (attributes : List RawAttribute)
  | fault
  deriving DecidableEq

namespace Lexeme

def tag? (name : QName) : Nat → List RawAttribute → List Char → Option (Lexeme × List Char)
  | 0, _, _ => none
  | _ + 1, attributes, [] => some (cut name attributes, [])
  | n + 1, attributes, s =>
    match skipSpaces s with
    | '/' :: '>' :: rest => some (empty name attributes, rest)
    | '>' :: rest => some (opening name attributes, rest)
    | _ => do
      let (next, rest) ← attribute? (← spaces? s)
      tag? name n (attributes ++ [next]) rest

def closing? (s : List Char) : Option (Lexeme × List Char) := do
  let (name, s) ← qname? s
  return (closing name, ← expect? '>' (skipSpaces s))

def declaration? (s : List Char) : Option (Lexeme × List Char) :=
  match afterStart? "--".toList s, afterStart? "[CDATA[".toList s,
    afterStart? "DOCTYPE".toList s with
  | some s, _, _ => (comment? s).map fun (content, s) => (comment content, s)
  | _, some s, _ => (upTo? [']', ']', '>'] s).map fun (content, s) => (marked content, s)
  | _, _, some s => (doctype? s).map fun (entities, s) => (doctype entities, s)
  | none, none, none => none

def markup? : List Char → Option (Lexeme × List Char)
  | '!' :: s => declaration? s
  | '?' :: s => (instruction? s).map fun (target, s) => (instruction target, s)
  | '/' :: s => closing? s
  | s => do
    let (name, rest) ← qname? s
    tag? name (rest.length + 1) [] rest

def isText (raw : List Char) : Bool := raw.all isCharacter && (cutAt? [']', ']', '>'] raw).isNone

def scan : Nat → List Char → List Lexeme
  | 0, _ => [fault]
  | _ + 1, [] => []
  | n + 1, '<' :: s =>
    match markup? s with
    | some (lexeme, rest) => lexeme :: scan n rest
    | none => [fault]
  | n + 1, s =>
    let raw := s.takeWhile (· != '<')
    if isText raw then text raw :: scan n (s.dropWhile (· != '<')) else [fault]

/-- Cuts a text into lexemes. Each takes at least one character, so the text's length bounds their
number. -/
def ofText (s : List Char) : List Lexeme := scan (s.length + 1) s

def isMisc : Lexeme → Bool
  | text raw => raw.all isSpace
  | comment _ | instruction _ => true
  | _ => false

/-- The content of an element up to its closing tag, and what follows that. `depth` elements inside
it are open at the start. -/
def splitAtClosing : (depth : Nat) → List Lexeme → List Lexeme × List Lexeme
  | _, [] => ([], [])
  | depth, lexeme :: rest =>
    let inside := fun (depth : Nat) =>
      let (before, after) := splitAtClosing depth rest
      (lexeme :: before, after)
    match lexeme, depth with
    | opening _ _, depth => inside (depth + 1)
    | closing _, 0 => ([lexeme], rest)
    | closing _, depth + 1 => inside depth
    | _, depth => inside depth

end Lexeme

end Gatehouse.Xml
