/-!
Punycode, in which a label of a domain name is written with ASCII letters alone: the ASCII
characters first, and then where the others go and which they are, as steps of a counter over all
places and characters.
-/

namespace Gatehouse.Url.Punycode

def digit (n : Nat) : Char := Char.ofNat (if n < 26 then 0x61 + n else 0x16 + n)

/-- The bias after a step, from the step divided by two and more than that the first time. -/
def adapt (step places : Nat) (first : Bool) : Nat :=
  let scaled := step / (if first then 700 else 2)
  shrink 40 0 (scaled + scaled / places)
where
  shrink : (fuel offset step : Nat) → Nat
    | 0, offset, _ => offset
    | fuel + 1, offset, step =>
      if 455 < step then shrink fuel (offset + 36) (step / 35) else offset + 36 * step / (step + 38)

def variableDigits : (fuel position bias n : Nat) → List Char
  | 0, _, _, _ => []
  | fuel + 1, position, bias, n =>
    let threshold := min 26 (max 1 (position - bias))
    if n < threshold then [digit n]
    else
      digit (threshold + (n - threshold) % (36 - threshold)) ::
        variableDigits fuel (position + 36) bias ((n - threshold) / (36 - threshold))

/-- What is known between two steps: the digits written, the counter, the bias and the number of
characters done. -/
structure State where
  written : List Char
  counter : Nat
  bias : Nat
  done : Nat

def pass (basic code : Nat) (state : State) (c : Char) : State :=
  if c.toNat < code then { state with counter := state.counter + 1 }
  else if c.toNat = code then
    { written := state.written ++ variableDigits (state.counter + 1) 36 state.bias state.counter
      counter := 0
      bias := adapt state.counter (state.done + 1) (state.done == basic)
      done := state.done + 1 }
  else state

def steps (label : List Char) (basic : Nat) : (last : Nat) → List Nat → State → State
  | _, [], state => state
  | last, code :: codes, state =>
    let moved := { state with counter := state.counter + (code - last) * (state.done + 1) }
    let passed := label.foldl (pass basic code) moved
    steps label basic (code + 1) codes { passed with counter := passed.counter + 1 }

def encode (label : List Char) : List Char :=
  let ascii := label.filter (·.toNat < 0x80)
  let codes := ((label.filter (0x80 ≤ ·.toNat)).map Char.toNat).eraseDups.mergeSort
  let start : State := ⟨[], 0, 72, ascii.length⟩
  ascii ++ (if ascii = [] then [] else ['-']) ++ (steps label ascii.length 0x80 codes start).written

end Gatehouse.Url.Punycode
