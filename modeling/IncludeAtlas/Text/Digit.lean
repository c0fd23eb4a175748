/-!
# Digits

## Main Definitions

* `isDecimal`: the digits of base ten
* `hex?`: the value of a digit of base sixteen
* `value`: the value of a row of digits
-/

namespace IncludeAtlas.Digit

/-- Whether a character is a digit of base ten. -/
def isDecimal (c : Char) : Bool :=
  '0' ≤ c && c ≤ '9'

/-- The value of a digit of base sixteen. -/
def hex? (c : Char) : Option Nat :=
  if '0' ≤ c ∧ c ≤ '9' then some (c.toNat - '0'.toNat)
  else if 'a' ≤ c ∧ c ≤ 'f' then some (c.toNat - 'a'.toNat + 10)
  else if 'A' ≤ c ∧ c ≤ 'F' then some (c.toNat - 'A'.toNat + 10)
  else none

/-- The value of a row of digits of a base up to sixteen. -/
def value (base : Nat) (ds : List Char) : Nat :=
  ds.foldl (fun n c => n * base + (hex? c).getD 0) 0

end IncludeAtlas.Digit
