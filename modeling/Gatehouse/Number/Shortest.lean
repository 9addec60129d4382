import Gatehouse.Number.Binary64
/-!
The written form of a binary number: the fewest decimal digits that read back as the number, and of
those the nearest to it, without an exponent.
-/

namespace Gatehouse.Number

namespace Ratio

def le (a b : Ratio) : Bool := a.num * b.den ≤ b.num * a.den

def lt (a b : Ratio) : Bool := a.num * b.den < b.num * a.den

/-- The power of ten in the leading digit of a positive fraction: the greatest `p` such that
`10 ^ p` is not above it. -/
def leadingPower (r : Ratio) : Int :=
  if r.den ≤ r.num then (Nat.toDigits 10 r.floor).length - 1
  else
    let reciprocal : Ratio := ⟨r.den, r.num⟩
    Int.negOfNat (Nat.toDigits 10 (reciprocal.ceil - 1)).length

end Ratio

structure Decimal where
  digits : Nat
  power : Int
  deriving DecidableEq

namespace Decimal

def ratio (d : Decimal) : Ratio := Ratio.scale ⟨d.digits, 1⟩ 10 d.power

def positional (d : Decimal) : List Char :=
  let digits := Nat.toDigits 10 d.digits
  let places := (-d.power).toNat
  let all := List.replicate (places + 1 - digits.length) '0' ++ digits ++
    List.replicate d.power.toNat '0'
  let whole := all.take (all.length - places)
  let fraction := ((all.drop (all.length - places)).reverse.dropWhile (· == '0')).reverse
  if fraction.isEmpty then whole else whole ++ '.' :: fraction

end Decimal

namespace Binary64

structure Interval where
  lower : Ratio
  upper : Ratio
  closed : Bool

namespace Interval

/-- The ends lie half way to the neighbours. The lower neighbour of a power of two is nearer than
the upper one. Halves go to the even mantissa. -/
def of (mantissa : Nat) (exponent : Int) : Interval where
  lower :=
    let below := if mantissa = minMantissa ∧ minExponent < exponent then 1 else 2
    Ratio.scale ⟨4 * mantissa - below, 1⟩ 2 (exponent - 2)
  upper := Ratio.scale ⟨4 * mantissa + 2, 1⟩ 2 (exponent - 2)
  closed := mantissa % 2 == 0

def contains (interval : Interval) (r : Ratio) : Bool :=
  if interval.closed then interval.lower.le r && r.le interval.upper
  else interval.lower.lt r && r.lt interval.upper

end Interval

/-- The nearest decimal in the interval that has its last digit at the given power; of two equally
near ones the upper one. -/
def onGrid? (interval : Interval) (value : Ratio) (power : Int) : Option Decimal :=
  let scaled := value.scale 10 (-power)
  let lower : Decimal := ⟨scaled.floor, power⟩
  let upper : Decimal := ⟨scaled.ceil, power⟩
  let (near, far) := if scaled.roundUp = upper.digits then (upper, lower) else (lower, upper)
  if interval.contains near.ratio then some near
  else if interval.contains far.ratio then some far
  else none

/-- The shortest decimal that reads back as a positive number. Seventeen digits are always
enough. -/
def shortest (mantissa : Nat) (exponent : Int) : Decimal :=
  let value := ratio mantissa exponent
  let leading := value.leadingPower
  let interval := Interval.of mantissa exponent
  ((List.range 17).findSome? fun (n : Nat) => onGrid? interval value (leading - n)).getD
    ⟨mantissa, exponent⟩

def display : Binary64 → String
  | finite negative mantissa exponent =>
    let size := if mantissa = 0 then ['0'] else (shortest mantissa exponent).positional
    String.ofList (if negative then '-' :: size else size)
  | infinite negative => if negative then "-inf" else "inf"
  | nan => "NaN"

end Binary64

end Gatehouse.Number
