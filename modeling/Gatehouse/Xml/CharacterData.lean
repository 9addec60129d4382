import Gatehouse.Text.Digit
import Gatehouse.Xml.Doctype
/-!
Character data: the references in it and its line ends.
-/

namespace Gatehouse.Xml

open Text

/-- A character as written, one that a reference stands for, or the name of a declared entity. -/
inductive Piece where
  | plain (c : Char)
  | referenced (c : Char)
  | entity (name : List Char)
  deriving DecidableEq

inductive Run where
  | chars (content : List Char)
  | entity (name : List Char)
  deriving DecidableEq

namespace Piece

/-- A character by its number, which has at most 32 bits. A number that no character has gives the
replacement character. -/
def ofNumber? (code : Nat) : Option Piece :=
  let c := characterOf code
  if code < 0x100000000 ∧ isCharacter c = true then some (referenced c) else none

def ofReference? : List Char → Option Piece
  | '#' :: 'x' :: digits => do ofNumber? (← numeral? 16 digits)
  | '#' :: digits => do ofNumber? (← numeral? 10 digits)
  | body =>
    match String.ofList body with
    | "quot" => some (referenced '"')
    | "amp" => some (referenced '&')
    | "apos" => some (referenced '\'')
    | "lt" => some (referenced '<')
    | "gt" => some (referenced '>')
    | _ =>
      match name? body with
      | some (name, []) => some (entity name)
      | _ => none

/-- The pieces of character data, where `inside` holds what was read of a reference that is not
closed yet, the last character first. -/
def scan? : (inside : Option (List Char)) → List Char → Option (List Piece)
  | none, [] => some []
  | some _, [] => none
  | none, '&' :: s => scan? (some []) s
  | none, c :: s => (scan? none s).map (plain c :: ·)
  | some body, ';' :: s => do
    let piece ← ofReference? body.reverse
    return piece :: (← scan? none s)
  | some body, c :: s => scan? (some (c :: body)) s

def ofText? (raw : List Char) : Option (List Piece) := scan? none raw

def unreferenced : Piece → Piece
  | referenced c => plain c
  | piece => piece

/-- Reads a carriage return as a line feed, together with a line feed after it. It stays as it is
directly before a reference, and also at the very end directly after one. -/
def settle : List Piece → List Piece
  | [] => []
  | [plain '\r'] => [plain '\n']
  | plain '\r' :: plain '\n' :: rest => plain '\n' :: settle rest
  | plain '\r' :: plain c :: rest => plain '\n' :: settle (plain c :: rest)
  | [referenced c, plain '\r'] => [referenced c, plain '\r']
  | piece :: rest => piece :: settle rest

end Piece

def Run.ofPieces : List Piece → List Run
  | [] => []
  | .entity name :: rest => entity name :: ofPieces rest
  | .plain c :: rest | .referenced c :: rest =>
    match ofPieces rest with
    | chars content :: runs => chars (c :: content) :: runs
    | runs => chars [c] :: runs

def Run.ofText? (nested : Bool) (raw : List Char) : Option (List Run) := do
  let pieces ← Piece.ofText? raw
  return ofPieces (Piece.settle (if nested then pieces.map Piece.unreferenced else pieces))

def blankToSpace (c : Char) : Char := if isSpace c then ' ' else c

end Gatehouse.Xml
