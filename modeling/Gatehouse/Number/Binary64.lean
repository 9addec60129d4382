/-!
Binary numbers of 64 bits, and the one that is nearest to a decimal. All arithmetic is exact.
-/

namespace Gatehouse.Number

/-- A binary number of 64 bits. A finite one is `mantissa · 2 ^ exponent`, where the mantissa is
below `2 ^ 53` and the exponent the least possible but not below `-1074`. -/
inductive Binary64 where
  | finite (negative : Bool) (mantissa : Nat) (exponent : Int)
  | infinite (negative : Bool)
  | nan
  deriving DecidableEq

structure Ratio where
  num : Nat
  den : Nat
  deriving DecidableEq

namespace Ratio

def scale (r : Ratio) (base : Nat) (exponent : Int) : Ratio :=
  ⟨r.num * Nat.pow base exponent.toNat, r.den * Nat.pow base (-exponent).toNat⟩

def floor (r : Ratio) : Nat := r.num / r.den

def ceil (r : Ratio) : Nat := (r.num + r.den - 1) / r.den

def roundToEven (r : Ratio) : Nat :=
  let whole := r.num / r.den
  let twice := 2 * (r.num % r.den)
  if twice < r.den ∨ (twice = r.den ∧ whole % 2 = 0) then whole else whole + 1

def roundUp (r : Ratio) : Nat := (2 * r.num + r.den) / (2 * r.den)

end Ratio

namespace Binary64

/-- The least exponent, and the greatest one. -/
def minExponent : Int := -1074
def maxExponent : Int := 971

def minMantissa : Nat := 0x10000000000000

/-- The exponent at which a positive fraction has a whole part of 53 binary digits, unless that is
below the least exponent. -/
def exponentOf (r : Ratio) : Int :=
  let guess : Int := (r.num.log2 : Int) - r.den.log2 - 52
  let exponent := if (r.scale 2 (-guess)).floor < minMantissa then guess - 1 else guess
  max exponent minExponent

def ofRatio (negative : Bool) (r : Ratio) : Binary64 :=
  let exponent := exponentOf r
  let mantissa := (r.scale 2 (-exponent)).roundToEven
  let (mantissa, exponent) :=
    if mantissa = 2 * minMantissa then (minMantissa, exponent + 1) else (mantissa, exponent)
  if maxExponent < exponent then infinite negative else finite negative mantissa exponent

/-- The number nearest to `digits · 10 ^ exponent`. Beyond `10 ^ 310` that is infinite, and below
`10 ^ (-330)` it is zero. -/
def ofDecimal (negative : Bool) (digits : Nat) (exponent : Int) : Binary64 :=
  let magnitude := (Nat.toDigits 10 digits).length + exponent
  if digits = 0 ∨ magnitude < -330 then finite negative 0 minExponent
  else if 310 < magnitude then infinite negative
  else ofRatio negative (Ratio.scale ⟨digits, 1⟩ 10 exponent)

def ratio (mantissa : Nat) (exponent : Int) : Ratio := Ratio.scale ⟨mantissa, 1⟩ 2 exponent

/-- The nearest number from 0 to `max`, where a half counts as one. What is no number counts as
none. -/
def clamp (max : Nat) : Binary64 → Nat
  | finite true _ _ => 0
  | finite false mantissa exponent => min max (ratio mantissa exponent).roundUp
  | infinite negative => if negative then 0 else max
  | nan => 0

end Binary64

end Gatehouse.Number
