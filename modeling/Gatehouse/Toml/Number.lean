import Gatehouse.Number.Binary64
import Gatehouse.Text.Digit
/-!
The written forms of numbers in TOML.
-/

namespace Gatehouse.Toml

open Text Number

/-- Digits without the underscores among them, each of which stands between two digits. -/
def digits? (base : Nat) (s : List Char) : Option (List Char) :=
  let groups := s.splitOn '_'
  if groups.all fun group => !group.isEmpty && group.all (isDigit base) then some groups.flatten
  else none

/-- The digits of the whole part of a decimal number, which has no zero too many before it. -/
def wholeDigits? : List Char → Option (List Char)
  | '0' :: _ :: _ => none
  | s => digits? 10 s

def unsigned : List Char → Bool × List Char
  | '-' :: s => (true, s)
  | '+' :: s => (false, s)
  | s => (false, s)

def withSign (negative : Bool) (n : Nat) : Int := if negative then -n else n

def based? (base : Nat) (s : List Char) : Option Int := do
  bounded? (← numeral? base (← digits? base s))

def integer? : List Char → Option Int
  | '0' :: 'x' :: s => based? 16 s
  | '0' :: 'o' :: s => based? 8 s
  | '0' :: 'b' :: s => based? 2 s
  | s => do
    let (negative, s) := unsigned s
    bounded? (withSign negative (← numeral? 10 (← wholeDigits? s)))

def exponent? : List Char → Option Int
  | [] => some 0
  | _ :: s => do
    let (negative, s) := unsigned s
    return withSign negative (← numeral? 10 (← digits? 10 s))

def fractionDigits? : List Char → Option (List Char)
  | [] => some []
  | _ :: s => digits? 10 s

def decimal? (negative : Bool) (s : List Char) : Option Binary64 := do
  let mantissa := s.takeWhile fun c => c != 'e' && c != 'E'
  let power := s.dropWhile fun c => c != 'e' && c != 'E'
  let fraction := mantissa.dropWhile (· != '.')
  if fraction.isEmpty ∧ power.isEmpty then none
  let whole ← wholeDigits? (mantissa.takeWhile (· != '.'))
  let places ← fractionDigits? fraction
  return .ofDecimal negative (← numeral? 10 (whole ++ places)) ((← exponent? power) - places.length)

/-- A number that need not be whole. One that is too large is refused, unless it is negative. -/
def float? (s : List Char) : Option Binary64 :=
  let (negative, s) := unsigned s
  if s = ['i', 'n', 'f'] then some (.infinite negative)
  else if s = ['n', 'a', 'n'] then some .nan
  else (decimal? negative s).filter (· != .infinite false)

end Gatehouse.Toml
