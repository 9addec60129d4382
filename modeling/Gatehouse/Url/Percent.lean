import Gatehouse.Text.Utf8
/-!
Percent-encoding: characters that a part of a URL cannot hold as they are stand there as the octets
of their UTF-8 form, each a percent sign and two hexadecimal digits.
-/

namespace Gatehouse.Url

open Text

def hexDigit (n : Nat) : Char := if n < 10 then Char.ofNat (0x30 + n) else Char.ofNat (0x37 + n)

def escapeOctet (b : UInt8) : List Char := ['%', hexDigit (b.toNat / 16), hexDigit (b.toNat % 16)]

/-- Encodes the characters that are no printable ASCII or belong to `reserved`. -/
def percentEncode (reserved : List Char) (s : List Char) : List Char :=
  s.flatMap fun c =>
    if c.toNat < 0x20 ∨ 0x7E < c.toNat ∨ c ∈ reserved then
      (String.utf8EncodeChar c).flatMap escapeOctet
    else [c]

/-- The octets of a text in which percent signs before two hexadecimal digits are decoded. -/
def percentDecode : List Char → List UInt8
  | '%' :: a :: b :: s =>
    match digitValue? 16 a, digitValue? 16 b with
    | some high, some low => UInt8.ofNat (high * 16 + low) :: percentDecode s
    | _, _ => '%'.toUInt8 :: percentDecode (a :: b :: s)
  | c :: s => String.utf8EncodeChar c ++ percentDecode s
  | [] => []

def fragmentSet : List Char := [' ', '"', '<', '>', '\x60']

def pathSet : List Char := fragmentSet ++ ['#', '?', '\x7b', '\x7d']

def userSet : List Char := pathSet ++ ['/', ':', ';', '=', '@', '[', '\\', ']', '^', '|']

def querySet (special : Bool) : List Char :=
  [' ', '"', '#', '<', '>'] ++ if special then ['\''] else []

end Gatehouse.Url
