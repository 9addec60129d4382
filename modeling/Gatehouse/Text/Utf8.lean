import Gatehouse.Text.Digit
/-!
UTF-8: the octets of a text, and the characters of octets. Octets that encode no text are told
apart into the least sequences that rule it out, each of which is as long as it could still have
become a character.
-/

namespace Gatehouse.Text.Utf8

def encode (s : List Char) : List UInt8 := s.flatMap String.utf8EncodeChar

/-- A character, a sequence of octets that none begins with, or the beginning of one at the end. -/
inductive Piece where
  | char (c : Char)
  | invalid (length : Nat)
  | incomplete
  deriving DecidableEq

def isTail (b : UInt8) : Bool := 0x80 ≤ b && b ≤ 0xBF

/-- Whether `b` may follow the first octet `a` of a character of three or four octets. -/
def isSecond (a b : UInt8) : Bool :=
  if a == 0xE0 then 0xA0 ≤ b && b ≤ 0xBF
  else if a == 0xED then 0x80 ≤ b && b ≤ 0x9F
  else if a == 0xF0 then 0x90 ≤ b && b ≤ 0xBF
  else if a == 0xF4 then 0x80 ≤ b && b ≤ 0x8F
  else isTail b

def join (start : Nat) (tails : List UInt8) : Char :=
  characterOf (tails.foldl (fun n b => n * 64 + b.toNat % 64) start)

def pieces : List UInt8 → List Piece
  | [] => []
  | a :: s =>
    if a < 0x80 then .char (join a.toNat []) :: pieces s
    else if 0xC2 ≤ a && a ≤ 0xDF then
      match s with
      | [] => [.incomplete]
      | b :: t =>
        if isTail b then .char (join (a.toNat % 32) [b]) :: pieces t
        else .invalid 1 :: pieces (b :: t)
    else if 0xE0 ≤ a && a ≤ 0xEF then
      match s with
      | [] => [.incomplete]
      | b :: t =>
        if isSecond a b then
          match t with
          | [] => [.incomplete]
          | c :: u =>
            if isTail c then .char (join (a.toNat % 16) [b, c]) :: pieces u
            else .invalid 2 :: pieces (c :: u)
        else .invalid 1 :: pieces (b :: t)
    else if 0xF0 ≤ a && a ≤ 0xF4 then
      match s with
      | [] => [.incomplete]
      | b :: t =>
        if isSecond a b then
          match t with
          | [] => [.incomplete]
          | c :: u =>
            if isTail c then
              match u with
              | [] => [.incomplete]
              | d :: v =>
                if isTail d then .char (join (a.toNat % 8) [b, c, d]) :: pieces v
                else .invalid 3 :: pieces (d :: v)
            else .invalid 2 :: pieces (c :: u)
        else .invalid 1 :: pieces (b :: t)
    else .invalid 1 :: pieces s

/-- Why octets encode no text, with the number of octets before the fault. -/
inductive Fault where
  | invalid (length index : Nat)
  | incomplete (index : Nat)
  deriving DecidableEq

def Fault.message : Fault → String
  | invalid length index =>
    "invalid utf-8 sequence of " ++ toString length ++ " bytes from index " ++ toString index
  | incomplete index => "incomplete utf-8 byte sequence from index " ++ toString index

def collect (index : Nat) : List Piece → Except Fault (List Char)
  | [] => .ok []
  | .char c :: rest => (collect (index + c.utf8Size) rest).map (c :: ·)
  | .invalid length :: _ => .error (.invalid length index)
  | .incomplete :: _ => .error (.incomplete index)

def decode (octets : List UInt8) : Except Fault (List Char) := collect 0 (pieces octets)

def decodeLossy (octets : List UInt8) : List Char :=
  (pieces octets).map fun
    | .char c => c
    | .invalid _ | .incomplete => '\uFFFD'

end Gatehouse.Text.Utf8
