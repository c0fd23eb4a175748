/-!
# Binary floating point

The numbers of the 64-bit format as exact values, and the number of the format that
is nearest to a fraction.

## Main Definitions

* `Binary.Value`: what a bit pattern stands for
* `valueOf`: the value of a `Float`
* `nearest`: the `Float` nearest to a fraction, ties to the even significand
* `ofDecimal`: the `Float` nearest to `m · 10 ^ e`

## Design notes

Everything is decided on natural numbers.  A finite value is `significand · 2 ^ exponent`
with `exponent ≥ -1074` and `significand < 2 ^ 53`; when the exponent is not the least
one, the significand has all its 53 bits.  The bit pattern of such a value without its
sign is `(exponent + 1074) · 2 ^ 52 + significand` for subnormal and normal values
alike, so that rounding up into the next binade needs no case of its own.
-/

namespace IncludeAtlas.Binary

/-- What a bit pattern stands for. -/
inductive Value where
  | finite (negative : Bool) (significand : Nat) (exponent : Int)
  | infinite (negative : Bool)
  | notANumber
  deriving DecidableEq, Repr

/-- The bit of the sign. -/
def signBit : Nat := 0x8000000000000000

/-- The first bit of a full significand, one above the bits that a pattern keeps of it:
`2 ^ 52`. -/
def leadBit : Nat := 0x10000000000000

/-- The value of a bit pattern. -/
def ofBits (bits : UInt64) : Value :=
  let negative := bits.toNat / signBit = 1
  let biased := bits.toNat / leadBit % 2048
  let fraction := bits.toNat % leadBit
  if biased = 2047 then
    if fraction = 0 then .infinite negative else .notANumber
  else if biased = 0 then .finite negative fraction (-1074)
  else .finite negative (leadBit + fraction) (Int.ofNat biased - 1075)

/-- The value of a `Float`. -/
def valueOf (x : Float) : Value :=
  ofBits x.toBits

/-- A quotient rounded to the nearest integer, a half to the even one. -/
def roundDiv (num den : Nat) : Nat :=
  let q := num / den
  let r := num % den
  if 2 * r < den then q
  else if den < 2 * r then q + 1
  else q + q % 2

/-- The fraction `num / den · 2 ^ (-e)`. -/
def scaled (num den : Nat) (e : Int) : Nat × Nat :=
  if e < 0 then (num <<< e.natAbs, den) else (num, den <<< e.natAbs)

/-- The exponent at which `num / den` is rounded: its significand has 53 bits there,
unless that would be below the least exponent. -/
def roundingExponent (num den : Nat) : Int :=
  let e := max (Int.ofNat num.log2 - Int.ofNat den.log2 - 53) (-1074)
  let (n, d) := scaled num den e
  if 2 * leadBit ≤ n / d then e + 1 else e

/-- The bit pattern of the infinity above zero. -/
def infinityBits : Nat := 0x7FF0000000000000

/-- The infinity above zero. -/
def infinity : Float :=
  Float.ofBits infinityBits.toUInt64

/-- A value that is no number. -/
def notANumber : Float :=
  Float.ofBits (infinityBits + leadBit / 2).toUInt64

/-- The pattern, without its sign, of the number nearest to `num / den`. -/
def nearestBits (num den : Nat) : Nat :=
  if num = 0 then 0
  else
    let e := roundingExponent num den
    let (n, d) := scaled num den e
    min ((e + 1074).toNat * leadBit + roundDiv n d) infinityBits

/-- The number nearest to `num / den`, with the given sign. -/
def nearest (negative : Bool) (num den : Nat) : Float :=
  Float.ofBits ((if negative then signBit else 0) + nearestBits num den).toUInt64

/-- The number nearest to `m · 10 ^ e`, with the given sign.  Beyond the bounds on
the decimal exponent every value rounds to infinity or to zero. -/
def ofDecimal (negative : Bool) (m : Nat) (e : Int) : Float :=
  let size : Int := (Nat.toDigits 10 m).length
  if m = 0 ∨ size + e < -330 then nearest negative 0 1
  else if 310 < size + e then Float.ofBits ((if negative then signBit else 0) + infinityBits).toUInt64
  else if e < 0 then nearest negative m (Nat.pow 10 e.natAbs)
  else nearest negative (m * Nat.pow 10 e.natAbs) 1

end IncludeAtlas.Binary
