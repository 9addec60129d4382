import Gatehouse.Text.Affix
import Gatehouse.Text.Digit
/-!
The written forms of numbers and of bare words in KDL. Only whether a word is a number matters
here, and whether it is a possible one: a whole number has 128 bits.
-/

namespace Gatehouse.Kdl

open Text

def digits? (base : Nat) (s : List Char) : Option (List Char) :=
  if s.head?.any (isDigit base) = true ∧ s.all (fun c => isDigit base c || c == '_') = true then
    some (s.filter (· != '_'))
  else none

def unsigned : List Char → Bool × List Char
  | '-' :: s => (true, s)
  | '+' :: s => (false, s)
  | s => (false, s)

def fits (negative : Bool) (n : Nat) : Bool :=
  let limit := 0x80000000000000000000000000000000
  if negative then n ≤ limit else n < limit

def isWhole (base : Nat) (negative : Bool) (s : List Char) : Bool :=
  ((digits? base s).bind (numeral? base)).any (fits negative)

def isExponent (s : List Char) : Bool := (digits? 10 (unsigned s).2).isSome

def isFractional (s : List Char) : Bool :=
  let mantissa := s.takeWhile fun c => c != 'e' && c != 'E'
  let exponent := s.dropWhile fun c => c != 'e' && c != 'E'
  let whole := mantissa.takeWhile (· != '.')
  let fraction := mantissa.dropWhile (· != '.')
  (digits? 10 whole).isSome && (fraction.isEmpty || (digits? 10 fraction.tail).isSome) &&
    (exponent.isEmpty || isExponent exponent.tail) && !(fraction.isEmpty && exponent.isEmpty)

def isNumber (s : List Char) : Bool :=
  let (negative, body) := unsigned s
  match body with
  | '0' :: 'x' :: rest => isWhole 16 negative rest
  | '0' :: 'o' :: rest => isWhole 8 negative rest
  | '0' :: 'b' :: rest => isWhole 2 negative rest
  | _ => isWhole 10 negative body || isFractional body

/-- Whether a run of word characters begins like a number and so is no word: a digit after at most
a sign and a point. -/
def beginsLikeNumber (s : List Char) : Bool :=
  let body := match s with
    | '-' :: s | '+' :: s => s
    | s => s
  match body with
  | '.' :: c :: _ => isDigit 10 c
  | c :: _ => isDigit 10 c
  | [] => false

/-- The keywords, which must not be written as bare words. -/
def reserved : List String := ["true", "false", "null", "inf", "-inf", "nan"]

end Gatehouse.Kdl
