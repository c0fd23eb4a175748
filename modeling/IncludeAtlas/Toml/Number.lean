import IncludeAtlas.Toml.Basic
import IncludeAtlas.Decimal.Read
import IncludeAtlas.Text.Digit

/-!
# Numbers of TOML

Integers are written in base ten with an optional sign, or in base sixteen, eight or two
without one.  Floating-point numbers have a fraction, an exponent or both, or are one of
the words `inf` and `nan`.  In every row of digits a single underscore may stand between
two digits.

## Main Definitions

* `digitRun?`: a row of digits
* `integer?`: an integer of 64 bits
* `float?`: a floating-point number
* `number?`: either

## Design notes

Outside exponents and fractions base ten knows no leading zeros.  An integer beyond 64
bits is refused, and so is a floating-point number above the greatest finite one; below
the least finite one there is the negative infinity.
-/

namespace IncludeAtlas.Toml

/-- The digits that follow a digit, without their underscores. -/
def moreDigits (p : Char → Bool) : List Char → List Char × List Char
  | [] => ([], [])
  | [c] => if p c then ([c], []) else ([], [c])
  | c :: d :: rest =>
    if p c then
      let (ds, rest) := moreDigits p (d :: rest)
      (c :: ds, rest)
    else if c = '_' ∧ p d then
      let (ds, rest) := moreDigits p rest
      (d :: ds, rest)
    else ([], c :: d :: rest)

/-- A row of one or more digits. -/
def digitRun? (p : Char → Bool) : List Char → Option (List Char × List Char)
  | c :: rest =>
    if p c then
      let (ds, rest) := moreDigits p rest
      some (c :: ds, rest)
    else none
  | [] => none

/-- The digits of an integer in base ten: a zero alone, or a row without leading zero. -/
def wholeDigits? : List Char → Option (List Char × List Char)
  | '0' :: rest => some (['0'], rest)
  | s => digitRun? Digit.isDecimal s

/-- The greatest integer. -/
def integerMax : Int := 9223372036854775807

/-- The least integer. -/
def integerMin : Int := -9223372036854775808

/-- An integer that is not out of range. -/
def inRange? (n : Int) : Option Int :=
  if integerMin ≤ n ∧ n ≤ integerMax then some n else none

/-- An integer of base ten. -/
def decimal? (s : List Char) : Option (Int × List Char) := do
  let (negative, s) := Decimal.cutSign s
  let (ds, rest) ← wholeDigits? s
  let n : Int := Digit.value 10 ds
  return (← inRange? (if negative then -n else n), rest)

/-- An integer of another base. -/
def based? (base : Nat) (p : Char → Bool) (s : List Char) : Option (Int × List Char) := do
  let (ds, rest) ← digitRun? p s
  return (← inRange? (Digit.value base ds), rest)

/-- An integer. -/
def integer? : List Char → Option (Int × List Char)
  | '0' :: 'x' :: rest => based? 16 (fun c => (Digit.hex? c).isSome) rest
  | '0' :: 'o' :: rest => based? 8 (fun c => '0' ≤ c && c ≤ '7') rest
  | '0' :: 'b' :: rest => based? 2 (fun c => c == '0' || c == '1') rest
  | s => decimal? s

/-- The exponent that a text may start with. -/
def exponent? : List Char → Option (Int × List Char)
  | c :: rest =>
    if c = 'e' ∨ c = 'E' then do
      let (negative, s) := Decimal.cutSign rest
      let (ds, rest) ← digitRun? Digit.isDecimal s
      let n : Int := Digit.value 10 ds
      return (if negative then -n else n, rest)
    else none
  | [] => none

/-- A fraction, an exponent or both: the digits of the fraction and the exponent. -/
def fraction? : List Char → Option ((List Char × Int) × List Char)
  | '.' :: rest => do
    let (ds, rest) ← digitRun? Digit.isDecimal rest
    match exponent? rest with
    | some (e, rest) => return ((ds, e), rest)
    | none => return ((ds, 0), rest)
  | s => do
    let (e, rest) ← exponent? s
    return (([], e), rest)

/-- A floating-point number that is a word. -/
def floatWord? : List Char → Option (Float × List Char)
  | 'i' :: 'n' :: 'f' :: rest => some (Binary.infinity, rest)
  | 'n' :: 'a' :: 'n' :: rest => some (Binary.notANumber, rest)
  | _ => none

/-- A floating-point number in digits. -/
def floatDigits? (negative : Bool) (s : List Char) : Option (Float × List Char) := do
  let (whole, s) ← wholeDigits? s
  let ((fraction, e), rest) ← fraction? s
  let x := Binary.ofDecimal negative (Digit.value 10 (whole ++ fraction)) (e - fraction.length)
  if x == Binary.infinity then none else some (x, rest)

/-- A floating-point number. -/
def float? (s : List Char) : Option (Float × List Char) :=
  let (negative, s) := Decimal.cutSign s
  match floatWord? s with
  | some (x, rest) => some (if negative then -x else x, rest)
  | none => floatDigits? negative s

/-- A number. -/
def number? (s : List Char) : Option (Toml × List Char) :=
  match float? s with
  | some (x, rest) => some (.float x, rest)
  | none => (integer? s).map fun (n, rest) => (.integer n, rest)

end IncludeAtlas.Toml
