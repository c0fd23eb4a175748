/-!
# The ChaCha block function

A block is a function of a key and a position: sixteen words of 32 bits, made from
constants, the key and the position by twelve rounds of additions, exclusive ors
and rotations, to which the starting words are added at the end.

## Main Definitions

* `State`: the sixteen words
* `quarterRound`, `doubleRound`: the mixing steps
* `block`: the block of a key at a position
-/

namespace IncludeAtlas.ChaCha

/-- Sixteen words, in four rows of four. -/
abbrev State := Vector UInt32 16

/-- A key of 256 bits. -/
abbrev Key := Vector UInt32 8

/-- A word turned left by `k` bits. -/
def rotateLeft (w : UInt32) (k : UInt32) : UInt32 :=
  (w <<< k) ||| (w >>> (32 - k))

/-- Mixes four words of a state. -/
def quarterRound (a b c d : Fin 16) (s : State) : State :=
  let wa := s[a] + s[b]
  let wd := rotateLeft (s[d] ^^^ wa) 16
  let wc := s[c] + wd
  let wb := rotateLeft (s[b] ^^^ wc) 12
  let wa := wa + wb
  let wd := rotateLeft (wd ^^^ wa) 8
  let wc := wc + wd
  let wb := rotateLeft (wb ^^^ wc) 7
  (((s.set a wa).set b wb).set c wc).set d wd

/-- One round over the columns and one over the diagonals. -/
def doubleRound (s : State) : State :=
  s |> quarterRound 0 4 8 12 |> quarterRound 1 5 9 13
    |> quarterRound 2 6 10 14 |> quarterRound 3 7 11 15
    |> quarterRound 0 5 10 15 |> quarterRound 1 6 11 12
    |> quarterRound 2 7 8 13 |> quarterRound 3 4 9 14

/-- Twelve rounds. -/
def rounds (s : State) : State :=
  s |> doubleRound |> doubleRound |> doubleRound |> doubleRound |> doubleRound |> doubleRound

/-- The words a block starts from: four constants, the key, the position in 64 bits
and a stream number of zero. -/
def start (key : Key) (position : UInt64) : State :=
  #v[0x61707865, 0x3320646E, 0x79622D32, 0x6B206574,
    key[0], key[1], key[2], key[3], key[4], key[5], key[6], key[7],
    position.toUInt32, (position >>> 32).toUInt32, 0, 0]

/-- The block of a key at a position. -/
def block (key : Key) (position : UInt64) : State :=
  let s := start key position
  Vector.zipWith (· + ·) (rounds s) s

end IncludeAtlas.ChaCha
