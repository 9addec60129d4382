import Gatehouse.Kdl.Character
import Gatehouse.Text.Affix
import Gatehouse.Text.Digit
/-!
Strings in quotes: escapes, raw strings, and strings over several lines with their indentation.
-/

namespace Gatehouse.Kdl

open Text

/-- A character of a string, and whether it was written as it is and not by an escape. -/
structure Glyph where
  char : Char
  plain : Bool
  deriving DecidableEq

/-- What the characters read before mean for the next one. -/
inductive Escape where
  | plain
  | started
  | blanks
  | code
  /-- Inside the braces of a code point, with its digits so far, the last one first. -/
  | digits (read : List Char)
  deriving DecidableEq

def escaped? (c : Char) : Option Char :=
  ([('"', '"'), ('\\', '\\'), ('b', '\x08'), ('f', '\x0c'), ('n', '\n'), ('r', '\r'), ('s', ' '),
    ('t', '\t')] : List (Char × Char)).lookup c

def codePoint? (digits : List Char) : Option Char :=
  if digits.length ≤ 6 then
    (numeral? 16 digits).bind fun code => if code.isValidChar then some (Char.ofNat code) else none
  else none

def glyphs? (stop : List Char) : Escape → List Char → Option (List Glyph × List Char)
  | _, [] => none
  | .started, c :: s =>
    if c = 'u' then glyphs? stop .code s
    else if isBlank c then glyphs? stop .blanks s
    else do
      let char ← escaped? c
      let (glyphs, rest) ← glyphs? stop .plain s
      return (⟨char, false⟩ :: glyphs, rest)
  | .code, c :: s => if c = '{' then glyphs? stop (.digits []) s else none
  | .digits read, c :: s =>
    if c = '}' then do
      let char ← codePoint? read.reverse
      let (glyphs, rest) ← glyphs? stop .plain s
      return (⟨char, false⟩ :: glyphs, rest)
    else glyphs? stop (.digits (c :: read)) s
  | state, c :: s =>
    if state = .blanks ∧ isBlank c = true then glyphs? stop .blanks s
    else
      match afterStart? stop (c :: s) with
      | some rest => some ([], rest)
      | none =>
        if c = '\\' then glyphs? stop .started s
        else if isDisallowed c then none
        else do
          let (glyphs, rest) ← glyphs? stop .plain s
          return (⟨c, true⟩ :: glyphs, rest)

def Glyph.endsLine (glyph : Glyph) : Bool := glyph.plain && isNewline glyph.char

def lines : List Glyph → List (List Glyph)
  | [] => [[]]
  | ⟨'\r', true⟩ :: ⟨'\n', true⟩ :: rest => [] :: lines rest
  | glyph :: rest =>
    if glyph.endsLine then [] :: lines rest
    else
      match lines rest with
      | line :: more => (glyph :: line) :: more
      | [] => [[glyph]]

def isBlankLine (line : List Glyph) : Bool :=
  line.all fun glyph => glyph.plain && isSpace glyph.char

/-- The content of a string over several lines. The last line is the indentation that every other
line begins with, blank ones apart. -/
def dedent? (glyphs : List Glyph) : Option (List Char) := do
  let all := lines glyphs
  let indent := all.getLast?.getD []
  if !isBlankLine indent then none
  let body ← all.dropLast.mapM fun line =>
    if isBlankLine line then some [] else afterStart? indent line
  return ['\n'].intercalate (body.map (·.map Glyph.char))

def afterNewline? : List Char → Option (List Char)
  | '\r' :: '\n' :: s => some s
  | c :: s => if isNewline c then some s else none
  | [] => none

def oneLine? (glyphs : List Glyph) : Option (List Char) :=
  if glyphs.any Glyph.endsLine then none else some (glyphs.map Glyph.char)

def quoted? (s : List Char) : Option (List Char × List Char) :=
  match afterStart? ['"', '"'] s with
  | some s => do
    let (glyphs, rest) ← glyphs? ['"', '"', '"'] .plain (← afterNewline? s)
    return (← dedent? glyphs, rest)
  | none => do
    let (glyphs, rest) ← glyphs? ['"'] .plain s
    return (← oneLine? glyphs, rest)

/-- A raw string after its first quote, where `hashes` stand before that and after the last quote.
Nothing is an escape in it. -/
def raw? (hashes s : List Char) : Option (List Char × List Char) := do
  let literal (content : List Char) : Option (List Glyph) :=
    if content.any isDisallowed then none else some (content.map (⟨·, true⟩))
  match afterStart? ['"', '"'] s with
  | some s => do
    let (content, rest) ← cutAt? (['"', '"', '"'] ++ hashes) (← afterNewline? s)
    return (← dedent? (← literal content), rest)
  | none => do
    let (content, rest) ← cutAt? ('"' :: hashes) s
    return (← oneLine? (← literal content), rest)

end Gatehouse.Kdl
