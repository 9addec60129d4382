import Gatehouse.Xml.Namespace
/-!
Whole documents: the tree that marks describe, and the document element of a text. A text that is
no well-formed document gives nothing.
-/

namespace Gatehouse.Xml

open Text

structure OpenElement where
  tag : QName
  name : Name
  attributes : List (Name × String)
  scope : Scope
  children : List Node

/-- A tree that is being built. -/
structure Growth where
  stack : List OpenElement := []
  top : List Node := []
  /-- Attributes of opening tags without an end, which count for the next element. -/
  pending : List Attribute := []

namespace Growth

def add (growth : Growth) (node : Node) : Growth :=
  match growth.stack with
  | [] => { growth with top := node :: growth.top }
  | inner :: outer =>
    { growth with stack := { inner with children := node :: inner.children } :: outer }

def scope (growth : Growth) : Scope := (growth.stack.head?.map (·.scope)).getD []

def enter? (growth : Growth) (tag : QName) (attributes : List Attribute) : Option Growth := do
  let (own, others) ← Scope.part? (growth.pending ++ attributes)
  let scope := own ++ growth.scope
  let element : OpenElement :=
    { tag, scope
      name := ← scope.elementName? tag
      attributes := ← scope.attributes? others
      children := [] }
  return { growth with stack := element :: growth.stack, pending := [] }

def leave? (growth : Growth) (tag : QName) : Option Growth :=
  match growth.stack with
  | [] => none
  | inner :: outer =>
    if inner.tag = tag then
      let node := Node.element inner.name inner.attributes inner.children.reverse
      some ({ growth with stack := outer }.add node)
    else none

def step? (growth : Growth) : Mark → Option Growth
  | .text content => some (growth.add (.text (String.ofList content)))
  | .comment content => some (growth.add (.comment (String.ofList content)))
  | .instruction target => some (growth.add (.instruction (String.ofList target)))
  | .opening tag attributes => growth.enter? tag attributes
  | .closing tag => growth.leave? tag
  | .cut tag attributes =>
    if tag.tag = "xmlns".toList then none
    else some { growth with pending := growth.pending ++ attributes }

end Growth

def Node.ofMarks? (marks : List Mark) : Option (List Node) := do
  let growth ← marks.foldlM Growth.step? {}
  if growth.stack.isEmpty then some growth.top.reverse else none

namespace Document

def skipMark : List Char → List Char
  | '\uFEFF' :: s => s
  | s => s

/-- In a declaration a space is needed unless its end comes. -/
def gap? (s : List Char) : Option (List Char) :=
  match s with
  | [] | '?' :: '>' :: _ => some s
  | _ => spaces? s

def skipPart? (word : String) (s : List Char) : Option (List Char) :=
  if (afterStart? word.toList s).isSome then do
    let (_, s) ← attribute? s
    gap? s
  else some s

/-- Skips the declaration that a document may begin with. It has a version and may go on with an
encoding and then a word on standing alone. -/
def skipDeclaration? (s : List Char) : Option (List Char) :=
  match afterStart? "<?xml ".toList s with
  | none => some s
  | some s => do
    let s := skipSpaces s
    if (afterStart? "version".toList s).isNone then none
    let s ← skipPart? "version" s
    let s ← skipPart? "encoding" s
    let s ← if (afterStart? "standalone".toList s).isSome then (attribute? s).map (·.2) else some s
    afterStart? ['?', '>'] (skipSpaces s)

def splitRoot? : List Lexeme → Option (List Lexeme × List Lexeme)
  | .opening name attributes :: rest =>
    let (inside, after) := Lexeme.splitAtClosing 0 rest
    some (.opening name attributes :: inside, after)
  | .empty name attributes :: rest => some ([.empty name attributes], rest)
  | _ => none

def splitProlog (lexemes : List Lexeme) : Entities × List Lexeme :=
  match lexemes.dropWhile Lexeme.isMisc with
  | .doctype entities :: rest => (entities, rest.dropWhile Lexeme.isMisc)
  | rest => ([], rest)

def root? (s : List Char) : Option Node := do
  let s ← skipDeclaration? (skipMark s)
  let (entities, lexemes) := splitProlog (Lexeme.ofText s)
  let (content, after) ← splitRoot? lexemes
  if !after.all Lexeme.isMisc then none
  let nodes ← Node.ofMarks? (← Mark.ofContent? entities content)
  nodes.find? Node.isElement

end Document

end Gatehouse.Xml
