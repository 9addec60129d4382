import Gatehouse.Text.Affix
import Gatehouse.Xml.Character
/-!
Scanners for the small parts of markup. Each takes the text that is left and answers what it read
together with what is left after it, or nothing when the text does not begin that way.
-/

namespace Gatehouse.Xml

open Text

/-- A name that may carry a namespace tag before a colon. -/
structure QName where
  tag : List Char
  name : List Char
  deriving DecidableEq

def skipSpaces (s : List Char) : List Char := s.dropWhile isSpace

def spaces? (s : List Char) : Option (List Char) :=
  if s.head?.any isSpace then some (skipSpaces s) else none

def expect? (c : Char) : List Char → Option (List Char)
  | d :: s => if c = d then some s else none
  | [] => none

def name? : List Char → Option (List Char × List Char)
  | c :: s =>
    if isNameStart c then some (c :: s.takeWhile isNameCharacter, s.dropWhile isNameCharacter)
    else none
  | [] => none

/-- A run of name characters as a qualified name: at most one colon, a name part that begins like a
name, and a tag that does so too unless it is empty. -/
def QName.ofRun? (run : List Char) : Option QName :=
  let tag := run.takeWhile (· != ':')
  let parts : List Char × List Char :=
    match run.dropWhile (· != ':') with
    | _ :: name => (tag, name)
    | [] => ([], run)
  if ':' ∉ parts.2 ∧ parts.1.head?.all isNameStart = true ∧
      parts.2.head?.any isNameStart = true then
    some ⟨parts.1, parts.2⟩
  else none

def qname? (s : List Char) : Option (QName × List Char) := do
  return (← QName.ofRun? (s.takeWhile isNameCharacter), s.dropWhile isNameCharacter)

def quoted? (allowed : Char → Bool) : List Char → Option (List Char × List Char)
  | [] => none
  | q :: s =>
    if q = '"' ∨ q = '\'' then do
      let value := s.takeWhile (· != q)
      let rest ← expect? q (s.dropWhile (· != q))
      if value.all allowed then some (value, rest) else none
    else none

def upTo? (stop : List Char) (s : List Char) : Option (List Char × List Char) := do
  let (content, rest) ← cutAt? stop s
  if content.all isCharacter then some (content, rest) else none

def attribute? (s : List Char) : Option ((QName × List Char) × List Char) := do
  let (name, s) ← qname? s
  let s ← expect? '=' (skipSpaces s)
  let (value, s) ← quoted? (fun c => isCharacter c && c != '<') (skipSpaces s)
  return ((name, value), s)

def comment? (s : List Char) : Option (List Char × List Char) := do
  let (content, rest) ← upTo? ['-', '-', '>'] s
  if (cutAt? ['-', '-'] (content ++ ['-'])).isNone then some (content, rest) else none

/-- The rest of a processing instruction, after its opening. `xml` and a space in that place would
be a declaration, which only begins a document. -/
def instruction? (s : List Char) : Option (List Char × List Char) := do
  if (afterStart? ['x', 'm', 'l', ' '] s).isSome then none
  let (target, s) ← name? s
  let (_, rest) ← upTo? ['?', '>'] (skipSpaces s)
  return (target, rest)

end Gatehouse.Xml
