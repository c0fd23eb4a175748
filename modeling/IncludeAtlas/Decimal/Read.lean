import IncludeAtlas.Decimal.Natural
import IncludeAtlas.Decimal.Binary
import IncludeAtlas.Text.Digit

/-!
# Decimals as floating-point numbers

The number of binary floating point that a decimal text stands for: the nearest one to the
value of its digits, however large or small.

## Main Definitions

* `cutSign`: the sign of a text
* `word?`: infinity, or what is no number, as a word in any case of letters
* `read?`: the number of a text

## Design notes

A number has an optional sign, digits with at most one point among or around them, and an
optional exponent.  There has to be a digit before or after the point and one in the
exponent.
-/

namespace IncludeAtlas.Decimal

/-- Whether a text starts with a minus, and what follows its sign. -/
def cutSign : List Char → Bool × List Char
  | '-' :: rest => (true, rest)
  | '+' :: rest => (false, rest)
  | s => (false, s)

/-- Infinity, or what is no number, as a word. -/
def word? (s : List Char) : Option Float :=
  let s := s.map Char.toLower
  if s = "inf".toList ∨ s = "infinity".toList then some Binary.infinity
  else if s = "nan".toList then some Binary.notANumber
  else none

/-- The exponent that a text may be: nothing, or a letter, a sign and digits. -/
def exponent? : List Char → Option Int
  | [] => some 0
  | c :: rest =>
    let (negative, ds) := cutSign rest
    if (c = 'e' ∨ c = 'E') ∧ ds ≠ [] then
      (Natural.ofDigits? ds).map fun n => if negative then -Int.ofNat n else Int.ofNat n
    else none

/-- The number of a text without a sign that is no word. -/
def magnitude? (negative : Bool) (s : List Char) : Option Float :=
  let whole := s.takeWhile Digit.isDecimal
  let (fraction, rest) :=
    match s.dropWhile Digit.isDecimal with
    | '.' :: rest => (rest.takeWhile Digit.isDecimal, rest.dropWhile Digit.isDecimal)
    | rest => ([], rest)
  if whole ++ fraction = [] then none
  else do
    let m ← Natural.ofDigits? (whole ++ fraction)
    let e ← exponent? rest
    return Binary.ofDecimal negative m (e - fraction.length)

/-- The number of a text. -/
def read? (s : List Char) : Option Float :=
  let (negative, s) := cutSign s
  match word? s with
  | some x => some (if negative then -x else x)
  | none => magnitude? negative s

end IncludeAtlas.Decimal
