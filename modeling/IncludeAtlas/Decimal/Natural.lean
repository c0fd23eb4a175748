/-!
# Bounded natural numbers in decimal

Reading a number that has to fit into a fixed range, and writing one.

## Main Definitions

* `ofDigits?`: the value of a row of digits
* `read`: a number with an optional plus sign, at most a given bound
* `Fault`: why a text is no such number

## Design notes

A text is judged from left to right and the first fault wins: in the range up to
255 the text `256x` is too large, since that shows at its third digit, and `25x` has
a wrong digit.
-/

namespace IncludeAtlas.Natural

/-- Why a text is not a number within its bound. -/
inductive Fault where
  | empty
  | invalidDigit
  | tooLarge
  deriving DecidableEq, Repr

/-- The wording of a fault. -/
def Fault.message : Fault → String
  | .empty => "cannot parse integer from empty string"
  | .invalidDigit => "invalid digit found in string"
  | .tooLarge => "number too large to fit in target type"

/-- The value of a decimal digit. -/
def digit? (c : Char) : Option Nat :=
  if '0' ≤ c ∧ c ≤ '9' then some (c.toNat - '0'.toNat) else none

/-- Reads digits after those that gave `value` so far, none of which may take it
above `bound`. -/
def readDigits (bound value : Nat) : List Char → Except Fault Nat
  | [] => .ok value
  | c :: cs =>
    match digit? c with
    | none => .error .invalidDigit
    | some d =>
      if bound < value * 10 + d then .error .tooLarge
      else readDigits bound (value * 10 + d) cs

/-- Reads a number of at most `bound`: an optional plus sign and one or more
digits. -/
def read (bound : Nat) (s : List Char) : Except Fault Nat :=
  match s with
  | [] => .error .empty
  | '+' :: [] => .error .invalidDigit
  | '+' :: cs => readDigits bound 0 cs
  | cs => readDigits bound 0 cs

/-- The value of a row of digits, if all of them are digits. -/
def ofDigits? (s : List Char) : Option Nat :=
  s.foldlM (fun value c => (digit? c).map (value * 10 + ·)) 0

/-- The digits of a number, at least one. -/
def digits (n : Nat) : List Char :=
  Nat.toDigits 10 n

/-- A number as text. -/
def text (n : Nat) : String :=
  String.ofList (digits n)

end IncludeAtlas.Natural
