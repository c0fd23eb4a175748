/-!
# UTF-8

Text as bytes and bytes as text.  File names and file contents are byte strings,
labels and tokens are text, and this module is the passage between the two.

## Main Definitions

* `encode`: the bytes of a text
* `decode?`: the text of a byte string, if it is well formed
* `lossy`: the text of any byte string, one replacement character for each
  maximal ill-formed stretch

## Design notes

Both readings of bytes come from one machine, `scan`, which reads a byte at a
time and lists what it recognises: a character, or `none` for a stretch that no
character can begin with.  `decode?` refuses a list with a gap in it, `lossy`
fills the gaps.
-/

namespace IncludeAtlas

/-- A string of bytes. -/
abbrev Bytes := List UInt8

namespace Utf8

/-- The bytes of one character. -/
def encodeChar (c : Char) : Bytes :=
  let n := c.toNat
  if n < 0x80 then [n.toUInt8]
  else if n < 0x800 then [(0xC0 + n / 0x40).toUInt8, (0x80 + n % 0x40).toUInt8]
  else if n < 0x10000 then
    [(0xE0 + n / 0x1000).toUInt8, (0x80 + n / 0x40 % 0x40).toUInt8, (0x80 + n % 0x40).toUInt8]
  else
    [(0xF0 + n / 0x40000).toUInt8, (0x80 + n / 0x1000 % 0x40).toUInt8,
      (0x80 + n / 0x40 % 0x40).toUInt8, (0x80 + n % 0x40).toUInt8]

/-- The bytes of a text. -/
def encode (s : String) : Bytes :=
  s.toList.flatMap encodeChar

/-- A character under way: the bits read so far, how many bytes follow the next
one, and the range the next one has to lie in. -/
structure Pending where
  code : Nat
  further : Nat
  low : UInt8
  high : UInt8

/-- What the first byte of a character announces. -/
inductive Lead where
  | whole (c : Char)
  | pending (p : Pending)
  | invalid

/-- Reads a first byte.  The ranges exclude overlong forms, surrogates and
everything above U+10FFFF. -/
def lead (b : UInt8) : Lead :=
  if b < 0x80 then .whole (Char.ofNat b.toNat)
  else if b < 0xC2 then .invalid
  else if b < 0xE0 then .pending ⟨b.toNat - 0xC0, 0, 0x80, 0xBF⟩
  else if b = 0xE0 then .pending ⟨0, 1, 0xA0, 0xBF⟩
  else if b = 0xED then .pending ⟨0xD, 1, 0x80, 0x9F⟩
  else if b < 0xF0 then .pending ⟨b.toNat - 0xE0, 1, 0x80, 0xBF⟩
  else if b = 0xF0 then .pending ⟨0, 2, 0x90, 0xBF⟩
  else if b < 0xF4 then .pending ⟨b.toNat - 0xF0, 2, 0x80, 0xBF⟩
  else if b = 0xF4 then .pending ⟨4, 2, 0x80, 0x8F⟩
  else .invalid

/-- The characters of a byte string from left to right, with `none` for each
maximal stretch that begins no character. -/
def scan : Option Pending → Bytes → List (Option Char)
  | none, [] => []
  | some _, [] => [none]
  | none, b :: bs =>
    match lead b with
    | .whole c => some c :: scan none bs
    | .pending p => scan (some p) bs
    | .invalid => none :: scan none bs
  | some p, b :: bs =>
    if p.low ≤ b ∧ b ≤ p.high then
      let code := p.code * 0x40 + (b.toNat - 0x80)
      match p.further with
      | 0 => some (Char.ofNat code) :: scan none bs
      | n + 1 => scan (some ⟨code, n, 0x80, 0xBF⟩) bs
    else
      none :: match lead b with
        | .whole c => some c :: scan none bs
        | .pending q => scan (some q) bs
        | .invalid => none :: scan none bs

/-- The text of a byte string, if every byte belongs to a character. -/
def decode? (bs : Bytes) : Option String :=
  ((scan none bs).mapM id).map String.ofList

/-- The text of a byte string, with U+FFFD in place of each ill-formed stretch. -/
def lossy (bs : Bytes) : String :=
  String.ofList ((scan none bs).map fun c => c.getD '\uFFFD')

end Utf8

end IncludeAtlas
