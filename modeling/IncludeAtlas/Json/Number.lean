import IncludeAtlas.Json.Basic
import IncludeAtlas.Decimal.Natural
import IncludeAtlas.Decimal.Shortest
import IncludeAtlas.Decimal.Display

/-!
# JSON numbers

What a number of a JSON text is worth, as a natural number and as a floating-point
number, and how numbers are spelled when they are written.

## Main Definitions

* `Number.natural?`: the value of a number without sign, fraction and exponent
* `Number.float?`: the value in binary floating point
* `Number.ofNat`, `Number.ofFloat?`: the spelling of a number

## Design notes

A floating-point value is computed in two roundings and not in one.  The digits are
gathered into a significand of 64 bits; the first digit that would overflow it and all
digits after that only count by their place.  The significand is rounded to binary
floating point and then multiplied with or divided by a power of ten.  A result that
overflows is refused, one that underflows is zero.

Written numbers have the shortest digits that are nearest to the value.  The notation is
positional if the first digit stands at an exponent from -5 to 15.
-/

namespace IncludeAtlas.Json.Number

/-- The greatest significand. -/
def significandBound : Nat := UInt64.size - 1

/-- The greatest exponent that is told apart from larger ones. -/
def exponentBound : Nat := 0x7FFFFFFF

/-- Gathers digits into a significand as long as it stays within its bound.  The
result is the significand and how many digits were left over. -/
def gather (significand : Nat) : List Char → Nat × Nat
  | [] => (significand, 0)
  | c :: cs =>
    let next := significand * 10 + (Natural.digit? c).getD 0
    if significandBound < next then (significand, cs.length + 1) else gather next cs

/-- The significand and decimal exponent of a number without its written exponent. -/
def significand (n : Number) : Nat × Int :=
  let (s, left) := gather 0 n.whole
  match n.fraction with
  | none => (s, left)
  | some ds =>
    let (s, dropped) := gather s ds
    (s, Int.ofNat left - Int.ofNat (ds.length - dropped))

/-- A power of ten. -/
def powerOfTen (k : Nat) : Float :=
  Binary.ofDecimal false 1 k

/-- Scales a significand by a power of ten; `none` if the result overflows. -/
def scale? (f : Float) (e : Int) : Option Float :=
  if 0 ≤ e then
    if e ≤ 308 then
      let x := f * powerOfTen e.natAbs
      if x.isInf then none else some x
    else if f == 0 then some f
    else none
  else if -308 ≤ e then some (f / powerOfTen e.natAbs)
  else if f == 0 then some f
  else scale? (f / powerOfTen 308) (e + 308)
termination_by e.natAbs

/-- Applies the sign of a number. -/
def signed (n : Number) (x : Float) : Float :=
  if n.negative then -x else x

/-- Whether the number is spelled as an integer. -/
def isInteger (n : Number) : Bool :=
  n.fraction.isNone && n.exponent.isNone

/-- The value of a number spelled as an integer without sign, if it is at most
`bound`. -/
def natural? (bound : Nat) (n : Number) : Option Nat :=
  if n.isInteger && !n.negative then
    match Natural.ofDigits? n.whole with
    | some v => if v ≤ bound then some v else none
    | none => none
  else none

/-- The value of a number in binary floating point, if it does not overflow. -/
def float? (n : Number) : Option Float :=
  let (s, e) := n.significand
  let f := s.toUInt64.toFloat
  match n.exponent with
  | none => (scale? f e).map n.signed
  | some (down, ds) =>
    match Natural.read exponentBound ds with
    | .ok k =>
      let total := if down then e - Int.ofNat k else e + Int.ofNat k
      (scale? f total).map n.signed
    | .error _ =>
      if s ≠ 0 ∧ ¬ down then none else some (n.signed 0)

/-- The spelling of a natural number. -/
def ofNat (k : Nat) : Number :=
  ⟨false, Natural.digits k, none, none⟩

/-- The spelling of shortest digits. -/
def ofDigits (negative : Bool) (d : Decimal.Digits) : Number :=
  if -5 ≤ d.exponent ∧ d.exponent ≤ 15 then
    let (whole, fraction) := Decimal.positional d
    ⟨negative, whole, some (if fraction.isEmpty then ['0'] else fraction), none⟩
  else
    let fraction := d.digits.drop 1
    ⟨negative, d.digits.take 1, if fraction.isEmpty then none else some fraction,
      some (d.exponent < 0, Natural.digits d.exponent.natAbs)⟩

/-- The spelling of a floating-point number, if it is finite. -/
def ofFloat? (x : Float) : Option Number :=
  match Binary.valueOf x with
  | .finite negative m q => some (ofDigits negative (Decimal.shortest .even m q))
  | _ => none

/-- A spelled number as text. -/
def render (n : Number) : List Char :=
  Decimal.sign n.negative ++ n.whole
    ++ (match n.fraction with | none => [] | some ds => '.' :: ds)
    ++ (match n.exponent with
      | none => []
      | some (down, ds) => 'e' :: (if down then '-' else '+') :: ds)

end IncludeAtlas.Json.Number
