/-!
The character classes of KDL 2.0: spaces within a line, line ends, characters that no string may
hold as they are, and the characters of bare words.
-/

namespace Gatehouse.Kdl

def isSpace (c : Char) : Bool :=
  let n := c.toNat
  n == 0x09 || n == 0x20 || n == 0xA0 || n == 0x1680 || (0x2000 ≤ n && n ≤ 0x200A) || n == 0x202F ||
    n == 0x205F || n == 0x3000

def isNewline (c : Char) : Bool :=
  let n := c.toNat
  (0x0A ≤ n && n ≤ 0x0D) || n == 0x85 || n == 0x2028 || n == 0x2029

def isBlank (c : Char) : Bool := isSpace c || isNewline c

/-- Control characters, marks of writing direction and the byte-order mark, which no string and no
word may hold as they are. -/
def isDisallowed (c : Char) : Bool :=
  let n := c.toNat
  n ≤ 0x08 || (0x0E ≤ n && n ≤ 0x1F) || n == 0x7F || n == 0x200E || n == 0x200F ||
    (0x202A ≤ n && n ≤ 0x202E) || (0x2066 ≤ n && n ≤ 0x2069) || n == 0xFEFF

def isWord (c : Char) : Bool :=
  !isBlank c && !isDisallowed c && !"\\/()\x7b\x7d;[]\"#=".toList.contains c

end Gatehouse.Kdl
