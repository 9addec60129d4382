/-!
Numerals: digits of a base up to sixteen, and the number that a run of them denotes. Main statement:
`numeral?_toDigits`, which says that the digits of a number denote it.
-/

namespace Gatehouse.Text

def hexValue? (c : Char) : Option Nat :=
  let n := c.toNat
  if 0x30 ≤ n ∧ n ≤ 0x39 then some (n - 0x30)
  else if 0x61 ≤ n ∧ n ≤ 0x66 then some (n - 0x57)
  else if 0x41 ≤ n ∧ n ≤ 0x46 then some (n - 0x37)
  else none

def digitValue? (base : Nat) (c : Char) : Option Nat := (hexValue? c).filter (· < base)

def isDigit (base : Nat) (c : Char) : Bool := (digitValue? base c).isSome

def numeralFrom? (base : Nat) : (start : Nat) → List Char → Option Nat
  | start, [] => some start
  | start, c :: s =>
    match digitValue? base c with
    | some d => numeralFrom? base (start * base + d) s
    | none => none

def numeral? (base : Nat) (s : List Char) : Option Nat :=
  if s.isEmpty then none else numeralFrom? base 0 s

/-- A number that 64 bits can hold, one of them for the sign. -/
def bounded? (n : Int) : Option Int :=
  if -0x8000000000000000 ≤ n ∧ n < 0x8000000000000000 then some n else none

theorem digitValue?_digitChar {base d : Nat} (small : base ≤ 16) (h : d < base) :
    digitValue? base (Nat.digitChar d) = some d := by
  have values : ∀ d < 16, hexValue? (Nat.digitChar d) = some d := by decide
  simp [digitValue?, values d (by omega), h]

theorem numeralFrom?_append (base start : Nat) (s t : List Char) :
    numeralFrom? base start (s ++ t) =
      (numeralFrom? base start s).bind (numeralFrom? base · t) := by
  induction s generalizing start with
  | nil => rfl
  | cons c s ih =>
    simp only [List.cons_append, numeralFrom?]
    cases digitValue? base c with
    | none => rfl
    | some d => exact ih _

theorem numeralFrom?_toDigits {base : Nat} (large : 1 < base) (small : base ≤ 16) (n : Nat) :
    numeralFrom? base 0 (Nat.toDigits base n) = some n := by
  induction n using Nat.strongRecOn with
  | ind n ih =>
    by_cases h : n < base
    · simp [Nat.toDigits_of_lt_base h, numeralFrom?, digitValue?_digitChar small h]
    · have positive : 0 < n / base := Nat.div_pos (by omega) (by omega)
      have last := Nat.mod_lt n (show 0 < base by omega)
      have split := Nat.toDigits_append_toDigits large positive last
      rw [Nat.div_add_mod, Nat.toDigits_of_lt_base last] at split
      rw [← split, numeralFrom?_append, ih _ (Nat.div_lt_self (by omega) large)]
      simp [numeralFrom?, digitValue?_digitChar small last, Nat.mul_comm, Nat.div_add_mod]

theorem numeral?_toDigits {base : Nat} (large : 1 < base) (small : base ≤ 16) (n : Nat) :
    numeral? base (Nat.toDigits base n) = some n := by
  have some_digit : Nat.toDigits base n ≠ [] := Nat.toDigits_ne_nil
  simp [numeral?, some_digit, numeralFrom?_toDigits large small]

theorem isDigit_of_numeralFrom? {base start n : Nat} {s : List Char}
    (read : numeralFrom? base start s = some n) : ∀ c ∈ s, isDigit base c = true := by
  induction s generalizing start with
  | nil => simp
  | cons c s ih =>
    unfold numeralFrom? at read
    split at read
    · next d value =>
      intro b member
      rcases List.mem_cons.1 member with rfl | later
      · rw [isDigit, value]
        rfl
      · exact ih read b later
    · cases read

theorem toNat_lt_of_isDigit {base : Nat} {c : Char} (digit : isDigit base c = true) :
    c.toNat < 0x67 := by
  apply Nat.lt_of_not_le
  intro large
  have none : hexValue? c = none := by
    rw [hexValue?, if_neg (by omega), if_neg (by omega), if_neg (by omega)]
  rw [isDigit, digitValue?, none] at digit
  cases digit

/-- The decimal digits of `n`, with zeros before them, at least `width` in all. -/
def padded (width n : Nat) : List Char :=
  let digits := Nat.toDigits 10 n
  List.replicate (width - digits.length) '0' ++ digits

def characterOf (code : Nat) : Char :=
  if code.isValidChar then Char.ofNat code else '\uFFFD'

/-- What holds of every code point below a bound holds of the characters below it. -/
theorem of_toNat_lt {p : Char → Prop} {bound : Nat} (each : ∀ n < bound, p (Char.ofNat n))
    {c : Char} (small : c.toNat < bound) : p c := by
  have here := each c.toNat small
  rwa [Char.ofNat_toNat] at here

theorem characterOf_toNat (c : Char) : characterOf c.toNat = c := by
  have valid : c.toNat.isValidChar := c.valid
  simp [characterOf, valid]

end Gatehouse.Text
