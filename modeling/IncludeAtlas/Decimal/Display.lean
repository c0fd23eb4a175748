import IncludeAtlas.Decimal.Shortest

/-!
# Floating-point numbers in messages

A number is shown by its shortest decimal, always in positional notation and without
a fraction where it has none.

## Main Definitions

* `positional`: digits laid out around the decimal point
* `display`: a number as text
-/

namespace IncludeAtlas.Decimal

/-- The digits before and after the decimal point; there is always one before it. -/
def positional (d : Digits) : List Char × List Char :=
  if d.exponent < 0 then
    (['0'], List.replicate (d.exponent.natAbs - 1) '0' ++ d.digits)
  else
    let whole := d.exponent.natAbs + 1
    (d.digits.take whole ++ List.replicate (whole - d.digits.length) '0', d.digits.drop whole)

/-- A sign, if there is one. -/
def sign (negative : Bool) : List Char :=
  if negative then ['-'] else []

/-- A number as text. -/
def display (x : Float) : String :=
  match Binary.valueOf x with
  | .notANumber => "NaN"
  | .infinite negative => String.ofList (sign negative) ++ "inf"
  | .finite negative m q =>
    let (whole, fraction) := positional (shortest .up m q)
    String.ofList <| sign negative ++ whole ++
      if fraction.isEmpty then [] else '.' :: fraction

end IncludeAtlas.Decimal
