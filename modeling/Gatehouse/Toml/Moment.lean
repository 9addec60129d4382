import Gatehouse.Text.Digit
/-!
Dates and times in TOML: a date, a time of day, or both with or without an offset from universal
time.
-/

namespace Gatehouse.Toml

open Text

structure Date where
  year : Nat
  month : Nat
  day : Nat
  deriving DecidableEq

structure Time where
  hour : Nat
  minute : Nat
  second : Nat
  nanosecond : Nat
  deriving DecidableEq

inductive Offset where
  | universal
  | minutes (n : Int)
  deriving DecidableEq

inductive Moment where
  | ofDate (date : Date)
  | ofTime (time : Time)
  /-- Both. Without an offset it is local time, wherever that is. -/
  | ofBoth (date : Date) (time : Time) (offset : Option Offset)
  deriving DecidableEq

def two? (max : Nat) : List Char → Option (Nat × List Char)
  | a :: b :: s => do
    let n ← numeral? 10 [a, b]
    if n ≤ max then some (n, s) else none
  | _ => none

def after? (c : Char) : List Char → Option (List Char)
  | d :: s => if c = d then some s else none
  | [] => none

namespace Date

def isLeap (year : Nat) : Bool := year % 4 == 0 && (year % 100 != 0 || year % 400 == 0)

def length (year month : Nat) : Nat :=
  if month = 2 then (if isLeap year then 29 else 28)
  else if month ∈ [4, 6, 9, 11] then 30
  else 31

def read? : List Char → Option (Date × List Char)
  | a :: b :: c :: d :: s => do
    let year ← numeral? 10 [a, b, c, d]
    let (month, s) ← two? 12 (← after? '-' s)
    let (day, s) ← two? (length year month) (← after? '-' s)
    if month = 0 ∨ day = 0 then none else some (⟨year, month, day⟩, s)
  | _ => none

def display (date : Date) : List Char :=
  padded 4 date.year ++ ['-'] ++ padded 2 date.month ++ ['-'] ++ padded 2 date.day

end Date

namespace Time

/-- The fraction of a second, in nanoseconds. What is smaller is dropped. -/
def fraction? : List Char → Option (Nat × List Char)
  | '.' :: s => do
    let digits := s.takeWhile (isDigit 10)
    let n ← numeral? 10 digits
    let read := digits.length
    let nanoseconds :=
      if read ≤ 9 then n * Nat.pow 10 (9 - read) else n / Nat.pow 10 (read - 9)
    return (nanoseconds, s.dropWhile (isDigit 10))
  | s => some (0, s)

def read? (s : List Char) : Option (Time × List Char) := do
  let (hour, s) ← two? 23 s
  let (minute, s) ← two? 59 (← after? ':' s)
  let (second, s) ← two? 60 (← after? ':' s)
  let (nanosecond, s) ← fraction? s
  return (⟨hour, minute, second, nanosecond⟩, s)

def display (time : Time) : List Char :=
  padded 2 time.hour ++ [':'] ++ padded 2 time.minute ++ [':'] ++ padded 2 time.second ++
    if time.nanosecond = 0 then []
    else '.' :: ((padded 9 time.nanosecond).reverse.dropWhile (· == '0')).reverse

end Time

namespace Offset

def read? : List Char → Option (Offset × List Char)
  | [] => none
  | c :: s =>
    if c = 'Z' ∨ c = 'z' then some (universal, s)
    else if c = '+' ∨ c = '-' then do
      let (hours, s) ← two? 23 s
      let (minute, s) ← two? 59 (← after? ':' s)
      let total : Int := hours * 60 + minute
      return (minutes (if c = '-' then -total else total), s)
    else none

def display : Offset → List Char
  | universal => ['Z']
  | minutes n =>
    (if n < 0 then '-' else '+') :: padded 2 (n.natAbs / 60) ++ [':'] ++ padded 2 (n.natAbs % 60)

end Offset

namespace Moment

/-- A moment that is written with these characters and no others. Between the date and the time
stands a letter or a space. -/
def ofText? (s : List Char) : Option Moment :=
  match Date.read? s with
  | some (date, []) => some (ofDate date)
  | some (date, c :: s) =>
    if c = 'T' ∨ c = 't' ∨ c = ' ' then do
      let (time, s) ← Time.read? s
      if s.isEmpty then return ofBoth date time none
      let (offset, s) ← Offset.read? s
      if s.isEmpty then some (ofBoth date time (some offset)) else none
    else none
  | none =>
    match Time.read? s with
    | some (time, []) => some (ofTime time)
    | _ => none

def display (moment : Moment) : String :=
  String.ofList <|
    match moment with
    | ofDate date => date.display
    | ofTime time => time.display
    | ofBoth date time offset =>
      date.display ++ ['T'] ++ time.display ++ (offset.map Offset.display).getD []

end Moment

end Gatehouse.Toml
