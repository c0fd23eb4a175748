import IncludeAtlas.Random.ChaCha

/-!
# Random draws

A seed determines an endless row of 64-bit words and with it of fractions between
zero and one.  `Draws` is a place in such a row.

## Main Definitions

* `keyOfSeed`: a seed of 64 bits spread over a key
* `word`, `fraction`: the draw with a given number
* `Draws`: a key and how many draws have been taken
* `Draws.next`: the next fraction

## Design notes

A draw is a function of the key and its number, so that what a node of a graph gets
depends only on the seed and on how many draws came before.
-/

namespace IncludeAtlas

namespace Random

/-- One step of the 64-bit congruential generator behind a key. -/
def stepSeed (s : UInt64) : UInt64 :=
  s * 6364136223846793005 + 11634580027462260723

/-- The word that a generator state gives out: its high bits, mixed and turned
right by an amount that its highest bits name. -/
def outputWord (s : UInt64) : UInt32 :=
  let w := (((s >>> 18) ^^^ s) >>> 27).toUInt32
  let k := (s >>> 59).toUInt32
  (w >>> k) ||| (w <<< ((32 - k) % 32))

/-- The generator after `n` steps. -/
def seedAfter (seed : UInt64) : Nat → UInt64
  | 0 => seed
  | n + 1 => stepSeed (seedAfter seed n)

/-- The key of a seed. -/
def keyOfSeed (seed : UInt64) : ChaCha.Key :=
  Vector.ofFn fun i => outputWord (seedAfter seed (i.val + 1))

/-- The 64-bit draw with number `n`: two words of a block, the low one first. -/
def word (key : ChaCha.Key) (n : Nat) : UInt64 :=
  let block := ChaCha.block key (n / 8).toUInt64
  let i : Fin 8 := ⟨n % 8, Nat.mod_lt _ (by decide)⟩
  let low := block[2 * i.val]
  let high := block[2 * i.val + 1]
  low.toUInt64 ||| (high.toUInt64 <<< 32)

/-- The draw with number `n` as a multiple of `2 ^ -53` below one. -/
def fraction (key : ChaCha.Key) (n : Nat) : Float :=
  (word key n >>> 11).toFloat / 9007199254740992.0

end Random

/-- A place in the row of draws of a key. -/
structure Draws where
  key : ChaCha.Key
  taken : Nat
  deriving DecidableEq

namespace Draws

/-- The start of the row that belongs to a seed. -/
def ofSeed (seed : UInt64) : Draws :=
  ⟨Random.keyOfSeed seed, 0⟩

/-- The next fraction, and the place after it. -/
def next (d : Draws) : Float × Draws :=
  (Random.fraction d.key d.taken, { d with taken := d.taken + 1 })

@[simp] theorem next_fst (d : Draws) : d.next.1 = Random.fraction d.key d.taken := rfl

@[simp] theorem next_snd (d : Draws) : d.next.2 = { d with taken := d.taken + 1 } := rfl

end Draws

end IncludeAtlas
