import Gatehouse.Xml.CharacterData
import Gatehouse.Xml.Lexeme
/-!
The marks of a document's content: its lexemes with every reference replaced by what it stands for.
An entity's text is read as content in its place, so it may open and close elements.
-/

namespace Gatehouse.Xml

def maxDepth : Nat := 10

/-- How many references one reference outside all entities may lead to. -/
def maxReferences : Nat := 255

abbrev Expansion := StateT Nat Option

namespace Expansion

def first {α : Type} (read : Expansion α) : Expansion α := do
  set maxReferences
  read

def inner {α : Type} (read : Expansion α) : Expansion α := do
  match ← get with
  | 0 => failure
  | left + 1 =>
    set left
    read

end Expansion

abbrev Attribute := QName × List Char

/-- The value of an attribute from its pieces, where `refer` gives the value of an entity. In an
entity's text no reference may stand for `<`. -/
def valueOf (refer : List Char → Expansion (List Char)) (nested : Bool) :
    List Piece → Expansion (List Char)
  | [] => pure []
  | .plain '\r' :: .plain '\n' :: rest => return ' ' :: (← valueOf refer nested rest)
  | .plain c :: rest => return blankToSpace c :: (← valueOf refer nested rest)
  | .referenced c :: rest =>
    if nested then
      if c = '<' then failure else return blankToSpace c :: (← valueOf refer nested rest)
    else return c :: (← valueOf refer nested rest)
  | .entity name :: rest => return (← refer name) ++ (← valueOf refer nested rest)

def Entities.value (entities : Entities) : (depth : Nat) → List Char → Expansion (List Char)
  | 0, _ => failure
  | depth + 1, name => do
    let pieces ← (entities.text? name).bind Piece.ofText?
    valueOf (fun name => .inner (entities.value depth name)) true pieces

inductive Mark where
  | text (content : List Char)
  | comment (content : List Char)
  | instruction (target : List Char)
  | opening (name : QName) (attributes : List Attribute)
  | closing (name : QName)
  | cut (name : QName) (attributes : List Attribute)
  deriving DecidableEq

namespace Mark

structure Replacement where
  content : List Char → Expansion (List Mark)
  value : List Char → Expansion (List Char)
  nested : Bool

def ofRun (replace : Replacement) : Run → Expansion (List Mark)
  | .chars content => return [text content]
  | .entity name => replace.content name

def readAttribute (replace : Replacement) (raw : RawAttribute) : Expansion Attribute := do
  let pieces ← Piece.ofText? raw.2
  return (raw.1, ← valueOf replace.value replace.nested pieces)

def ofLexeme (replace : Replacement) : Lexeme → Expansion (List Mark)
  | .text raw => do
    let runs ← Run.ofText? replace.nested raw
    return (← runs.mapM (ofRun replace)).flatten
  | .marked content =>
    return (Run.ofPieces (Piece.settle (content.map .plain))).filterMap fun
      | .chars content => some (text content)
      | .entity _ => none
  | .comment content => return [comment content]
  | .instruction target => return [instruction target]
  | .opening name attributes => return [opening name (← attributes.mapM (readAttribute replace))]
  | .empty name attributes =>
    return [opening name (← attributes.mapM (readAttribute replace)), closing name]
  | .cut name attributes => return [cut name (← attributes.mapM (readAttribute replace))]
  | .closing name => return [closing name]
  | .doctype _ | .fault => failure

def ofLexemes (replace : Replacement) (lexemes : List Lexeme) : Expansion (List Mark) :=
  return (← lexemes.mapM (ofLexeme replace)).flatten

def closesFirst : List Lexeme → Bool
  | [] => false
  | .closing _ :: _ => true
  | .opening _ _ :: _ | .empty _ _ :: _ | .cut _ _ :: _ => false
  | _ :: rest => closesFirst rest

/-- The marks of an entity's text, with at most `depth` entities inside each other. The text ends
with a closing tag that has no opening one in it, and must not begin with that. -/
def ofEntity (entities : Entities) : (depth : Nat) → List Char → Expansion (List Mark)
  | 0, _ => failure
  | depth + 1, name => do
    let raw ← entities.text? name
    let lexemes := (Lexeme.splitAtClosing 0 (Lexeme.ofText raw)).1
    if closesFirst lexemes then failure
    ofLexemes
      { content := fun name => .inner (ofEntity entities depth name)
        value := fun name => .inner (entities.value depth name)
        nested := true } lexemes

def ofContent? (entities : Entities) (lexemes : List Lexeme) : Option (List Mark) :=
  (ofLexemes
    { content := fun name => .first (ofEntity entities maxDepth name)
      value := fun name => .first (entities.value maxDepth name)
      nested := false } lexemes).run' maxReferences

end Mark

end Gatehouse.Xml
