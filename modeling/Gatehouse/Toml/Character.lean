/-!
The characters of TOML and its line ends. A line end is a line feed, before which a carriage return
may stand; `lines?` takes those returns out, so that everything after it knows line feeds alone.
-/

namespace Gatehouse.Toml

def isBlank (c : Char) : Bool := c == ' ' || c == '\t'

def isBlankOrNewline (c : Char) : Bool := isBlank c || c == '\n'

def isBare (c : Char) : Bool := c.isAlphanum || c == '_' || c == '-'

def isForbidden (c : Char) : Bool := (c.toNat < 0x20 && c != '\t' && c != '\n') || c.toNat == 0x7F

/-- A text with line feeds as its only line ends, or nothing if it has a forbidden character. -/
def lines? : List Char → Option (List Char)
  | [] => some []
  | '\r' :: '\n' :: s => (lines? s).map ('\n' :: ·)
  | c :: s => if isForbidden c then none else (lines? s).map (c :: ·)

end Gatehouse.Toml
