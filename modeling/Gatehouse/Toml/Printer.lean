import Gatehouse.Toml.Document
/-!
The written form of TOML documents that consist of sections: a header for each one, and below it a
line for each of its keys. A text stands in quotes, each of its characters by its code point.
-/

namespace Gatehouse.Toml

structure Section where
  name : String
  entries : List (String × String)
  deriving DecidableEq

/-- The code point of a character, in eight hexadecimal digits. -/
def codeDigits (c : Char) : List Char :=
  let digits := Nat.toDigits 16 c.toNat
  List.replicate (8 - digits.length) '0' ++ digits

def escape (c : Char) : List Char := '\\' :: 'U' :: codeDigits c

def writeString (s : String) : List Char := '"' :: s.toList.flatMap escape ++ ['"']

def writeEntry (entry : String × String) : List Char :=
  entry.1.toList ++ [' ', '=', ' '] ++ writeString entry.2 ++ ['\n']

namespace Section

def write (block : Section) : List Char :=
  '[' :: block.name.toList ++ [']', '\n'] ++ block.entries.flatMap writeEntry

/-- The table that a section is. -/
def table (block : Section) : Table :=
  block.entries.map fun (key, text) => (key, .string text)

end Section

end Gatehouse.Toml
