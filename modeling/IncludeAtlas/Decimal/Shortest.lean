import IncludeAtlas.Decimal.Binary

/-!
# Shortest decimals

The decimal with the fewest digits that reads back as a given binary number, and of
those with equally many digits the nearest one.

## Main Definitions

* `Interval`: the decimals that read back as a given number
* `Digits`: significant digits and the exponent of the first of them
* `shortest`: the shortest decimal of a positive number

## Design notes

A number `m · 2 ^ q` is what every real between its two half-way neighbours rounds to,
the half-way points themselves exactly if `m` is even.  For one digit, two digits and
so on the two neighbours of the number on that decimal grid are tested; seventeen
digits always suffice.  All quantities are natural numbers over one denominator.
-/

namespace IncludeAtlas.Decimal

/-- Significant digits, the first at `10 ^ exponent`. -/
structure Digits where
  digits : List Char
  exponent : Int
  deriving DecidableEq, Repr

/-- Which of two decimals is taken if the number lies half-way between them. -/
inductive Tie where
  | up
  | even
  deriving DecidableEq, Repr

/-- The reals that round to a number `value`, all over the denominator `den`. -/
structure Interval where
  low : Nat
  value : Nat
  high : Nat
  den : Nat
  closed : Bool

/-- The interval of `m · 2 ^ q`.  Below a power of two the numbers lie twice as dense
as above it. -/
def Interval.of (m : Nat) (q : Int) : Interval :=
  let down := if m = Binary.leadBit ∧ -1074 < q then 1 else 2
  let scale := if 2 ≤ q then 1 <<< (q - 2).natAbs else 1
  let den := if q < 2 then 1 <<< (2 - q).natAbs else 1
  ⟨(4 * m - down) * scale, 4 * m * scale, (4 * m + 2) * scale, den, m % 2 = 0⟩

/-- The interval over a grid: `10 ^ k` becomes the unit. -/
def Interval.onGrid (i : Interval) (k : Int) : Interval :=
  if 0 ≤ k then { i with den := i.den * Nat.pow 10 k.natAbs }
  else
    let unit := Nat.pow 10 k.natAbs
    { i with low := i.low * unit, value := i.value * unit, high := i.high * unit }

/-- Whether the integer `n` of the grid reads back as the number. -/
def Interval.holds (i : Interval) (n : Nat) : Bool :=
  let x := n * i.den
  if i.closed then i.low ≤ x && x ≤ i.high else i.low < x && x < i.high

/-- The nearer of the two neighbours on the grid that reads back, if one does. -/
def Interval.pick? (i : Interval) (tie : Tie) : Option Nat :=
  let n := i.value / i.den
  match i.holds n, i.holds (n + 1) with
  | false, false => none
  | true, false => some n
  | false, true => some (n + 1)
  | true, true =>
    let below := i.value - n * i.den
    let above := (n + 1) * i.den - i.value
    if below < above then some n
    else if above < below then some (n + 1)
    else match tie with
      | .up => some (n + 1)
      | .even => some (n + n % 2)

/-- The exponent of the first digit of a positive fraction. -/
def leadExponent (num den : Nat) : Int :=
  if den ≤ num then (Nat.toDigits 10 (num / den)).length - 1
  else -Int.ofNat (Nat.toDigits 10 ((den - 1) / num)).length

/-- A row of digits without the zeros at its end. -/
def dropZeros (ds : List Char) : List Char :=
  (ds.reverse.dropWhile (· == '0')).reverse

/-- Looks for a decimal of the interval with `count` digits, then with one more, for
`fuel` counts. -/
def search (i : Interval) (tie : Tie) (lead : Int) : (fuel count : Nat) → Digits
  | 0, _ => ⟨['0'], 0⟩
  | fuel + 1, count =>
    let k := lead - Int.ofNat count + 1
    match (i.onGrid k).pick? tie with
    | some n =>
      let ds := Nat.toDigits 10 n
      ⟨dropZeros ds, k + Int.ofNat ds.length - 1⟩
    | none => search i tie lead fuel (count + 1)

/-- The shortest decimal of `m · 2 ^ q`; that of zero is the digit zero. -/
def shortest (tie : Tie) (m : Nat) (q : Int) : Digits :=
  if m = 0 then ⟨['0'], 0⟩
  else
    let i := Interval.of m q
    search i tie (leadExponent i.value i.den) 17 1

end IncludeAtlas.Decimal
