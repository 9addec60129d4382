import Gatehouse.Text.Digit
/-!
Spans of time and their written form.
-/

namespace Gatehouse

structure Duration where
  microseconds : Nat
  deriving DecidableEq

namespace Duration

def ofSeconds (n : Nat) : Duration := ⟨n * 1000000⟩

def ofMilliseconds (n : Nat) : Duration := ⟨n * 1000⟩

/-- A number of units of `10 ^ places` microseconds, without zeros at the end of its fraction. -/
def inUnits (places microseconds : Nat) : String :=
  let unit := Nat.pow 10 places
  let fraction := Text.padded places (microseconds % unit)
  let kept := (fraction.reverse.dropWhile (· == '0')).reverse
  toString (microseconds / unit) ++
    (if microseconds % unit = 0 then "" else "." ++ String.ofList kept)

/-- The written form: in the largest unit that gives a whole part, down to microseconds. -/
def display (d : Duration) : String :=
  let n := d.microseconds
  if n = 0 then "0ns"
  else if n < 1000 then inUnits 0 n ++ "µs"
  else if n < 1000000 then inUnits 3 n ++ "ms"
  else inUnits 6 n ++ "s"

end Duration

end Gatehouse
