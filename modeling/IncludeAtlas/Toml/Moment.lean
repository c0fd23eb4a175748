import IncludeAtlas.Toml.Number

/-!
# Dates and times of TOML

A date, a time of day, or both, in which case an offset may follow.  Days have to exist in
their month, and a minute may have a leap second.

## Main Definitions

* `date?`, `time?`, `offset?`: what follows such a part, if it is well formed
* `moment?`: a date or time as it is spelled
-/

namespace IncludeAtlas.Toml

/-- A number of exactly two digits between two bounds. -/
def pair? (low high : Nat) : List Char → Option (Nat × List Char)
  | a :: b :: rest =>
    if Digit.isDecimal a ∧ Digit.isDecimal b then
      let n := Digit.value 10 [a, b]
      if low ≤ n ∧ n ≤ high then some (n, rest) else none
    else none
  | _ => none

/-- What follows a character, if a text starts with it. -/
def expect? (c : Char) : List Char → Option (List Char)
  | d :: rest => if c = d then some rest else none
  | [] => none

/-- How many days a month has. -/
def daysIn (year month : Nat) : Nat :=
  if month = 2 then
    if year % 4 = 0 ∧ (year % 100 ≠ 0 ∨ year % 400 = 0) then 29 else 28
  else if month = 4 ∨ month = 6 ∨ month = 9 ∨ month = 11 then 30
  else 31

/-- What follows a date. -/
def date? (s : List Char) : Option (List Char) := do
  let (century, s) ← pair? 0 99 s
  let (year, s) ← pair? 0 99 s
  let s ← expect? '-' s
  let (month, s) ← pair? 1 12 s
  let s ← expect? '-' s
  let (_, s) ← pair? 1 (daysIn (century * 100 + year) month) s
  return s

/-- What follows a fraction of a second, if there is one. -/
def secondsFraction? : List Char → Option (List Char)
  | '.' :: c :: rest => if Digit.isDecimal c then some (rest.dropWhile Digit.isDecimal) else none
  | '.' :: [] => none
  | s => some s

/-- What follows a time of day. -/
def time? (s : List Char) : Option (List Char) := do
  let (_, s) ← pair? 0 23 s
  let s ← expect? ':' s
  let (_, s) ← pair? 0 59 s
  let s ← expect? ':' s
  let (_, s) ← pair? 0 60 s
  secondsFraction? s

/-- What follows an offset. -/
def offset? : List Char → Option (List Char)
  | c :: rest =>
    if c = 'Z' ∨ c = 'z' then some rest
    else if c = '+' ∨ c = '-' then do
      let (_, s) ← pair? 0 23 rest
      let s ← expect? ':' s
      let (_, s) ← pair? 0 59 s
      return s
    else none
  | [] => none

/-- What follows a time of day after a date, if there is one. -/
def timeOfDay (s : List Char) : List Char :=
  match s with
  | c :: rest =>
    if c = 'T' ∨ c = 't' ∨ c = ' ' then
      match time? rest with
      | some rest => (offset? rest).getD rest
      | none => s
    else s
  | [] => s

/-- A date or time as it is spelled, and what follows. -/
def moment? (s : List Char) : Option (Toml × List Char) := do
  let rest ←
    match date? s with
    | some rest => some (timeOfDay rest)
    | none => time? s
  return (.moment (s.take (s.length - rest.length)), rest)

end IncludeAtlas.Toml
