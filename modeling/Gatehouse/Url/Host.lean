import Gatehouse.Text.Affix
import Gatehouse.Url.Percent
import Gatehouse.Url.Punycode
/-!
Hosts of URLs: domain names, the two kinds of addresses, and hosts of schemes without rules for
them.
-/

namespace Gatehouse.Url

open Text

inductive Host where
  | empty
  | domain (name : String)
  | ipv4 (address : Nat)
  | ipv6 (groups : List Nat)
  | opaqueName (name : String)
  deriving DecidableEq

/-! ### Addresses of four octets -/

def addressPart? (s : List Char) : Option Nat :=
  match s with
  | [] => none
  | '0' :: 'x' :: digits | '0' :: 'X' :: digits =>
    if digits = [] then some 0 else numeral? 16 digits
  | '0' :: d :: digits => numeral? 8 (d :: digits)
  | digits => numeral? 10 digits

def addressParts (s : List Char) : List (List Char) :=
  let parts := s.splitOn '.'
  if 1 < parts.length ∧ parts.getLast? = some [] then parts.dropLast else parts

def endsInNumber (s : List Char) : Bool :=
  match (addressParts s).getLast? with
  | some last =>
    (last != [] && last.all (isDigit 10)) ||
      ((last.take 2 == ['0', 'x'] || last.take 2 == ['0', 'X']) && (addressPart? last).isSome)
  | none => false

/-- The address of a domain that ends in a number. The last part fills all octets that are left. -/
def address? (s : List Char) : Option Host := do
  let parts := addressParts s
  if 4 < parts.length then none
  let numbers ← parts.mapM addressPart?
  let last ← numbers.getLast?
  let first := numbers.dropLast
  if first.any (255 < ·) ∨ Nat.pow 256 (5 - parts.length) ≤ last then none
  return .ipv4 (first.zipIdx.foldl (fun total (n, i) => total + n * Nat.pow 256 (3 - i)) last)

def writeAddress (address : Nat) : String :=
  ".".intercalate ([3, 2, 1, 0].map fun i => toString (address / Nat.pow 256 i % 256))

/-! ### Addresses of eight groups -/

def groups? (s : List Char) : Option (List Nat) :=
  if s = [] then some [] else do
    let parts := s.splitOn ':'
    let last ← parts.getLast?
    let tail ← if '.' ∈ last then do
        let octets ← (last.splitOn '.').mapM fun part =>
          if (part.length = 1 ∨ part.head? ≠ some '0') ∧ part.length ≤ 3 then numeral? 10 part
          else none
        match octets with
        | [a, b, c, d] =>
          if octets.all (· ≤ 255) then some [a * 256 + b, c * 256 + d] else none
        | _ => none
      else (group? last).map ([·])
    return (← parts.dropLast.mapM group?) ++ tail
where
  group? (part : List Char) : Option Nat := if part.length ≤ 4 then numeral? 16 part else none

/-- The address in brackets. Two colons stand for groups of zeros, at least one. -/
def address6? (s : List Char) : Option Host :=
  match cutAt? [':', ':'] s with
  | some (before, after) => do
    let front ← groups? before
    let back ← groups? after
    if 7 < front.length + back.length then none
    return .ipv6 (front ++ List.replicate (8 - front.length - back.length) 0 ++ back)
  | none => do
    let groups ← groups? s
    if groups.length = 8 then some (.ipv6 groups) else none

def zeros (groups : List Nat) : Nat := (groups.takeWhile (· == 0)).length

/-- The groups with the first of the longest runs of two or more zeros left out. -/
def writeGroups (groups : List Nat) : String :=
  let write := fun (gs : List Nat) =>
    ":".intercalate (gs.map fun n => String.ofList (Nat.toDigits 16 n))
  let runs := (List.range groups.length).map fun i => zeros (groups.drop i)
  let longest := runs.foldl max 0
  if longest < 2 then write groups
  else
    let start := runs.idxOf longest
    write (groups.take start) ++ "::" ++ write (groups.drop (start + longest))

/-! ### Hosts -/

namespace Host

def display : Host → String
  | empty => ""
  | domain name | opaqueName name => name
  | ipv4 address => writeAddress address
  | ipv6 groups => "[" ++ writeGroups groups ++ "]"

def forbidden : List Char :=
  ['\x00', '\t', '\n', '\r', ' ', '#', '/', ':', '<', '>', '?', '@', '[', '\\', ']', '^', '|']

def asciiLabel (label : List Char) : List Char :=
  if label.all (·.toNat < 0x80) then label else "xn--".toList ++ Punycode.encode label

def domainName? (s : List Char) : Option (List Char) :=
  let name := (Utf8.decodeLossy (percentDecode s)).map Char.toLower
  let ascii := ['.'].intercalate ((name.splitOn '.').map asciiLabel)
  let refused (c : Char) : Bool :=
    c ∈ forbidden || c == '%' || c.toNat ≤ 0x1F || c.toNat == 0x7F
  if ascii = [] ∨ ascii.any refused then none else some ascii

def parse? (special : Bool) (s : List Char) : Option Host :=
  match s with
  | [] => if special then none else some empty
  | '[' :: rest =>
    if rest.getLast? = some ']' then address6? rest.dropLast else none
  | _ =>
    if special then do
      let name ← domainName? s
      if endsInNumber name then address? name else some (domain (String.ofList name))
    else if s.any (· ∈ forbidden) then none
    else some (opaqueName (String.ofList (percentEncode [] s)))

end Host

end Gatehouse.Url
