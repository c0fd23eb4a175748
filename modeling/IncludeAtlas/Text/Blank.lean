/-!
# White space

The characters with the Unicode property `White_Space`, and what trimming them off
the ends of a text leaves.

## Main Definitions

* `isBlank`: membership in the property
* `trim`, `trimRight`: a text without the white space at its ends
-/

namespace IncludeAtlas.Blank

/-- The property `White_Space`. -/
def isBlank (c : Char) : Bool :=
  let n := c.toNat
  (0x9 ≤ n && n ≤ 0xD) || n == 0x20 || n == 0x85 || n == 0xA0 || n == 0x1680
    || (0x2000 ≤ n && n ≤ 0x200A) || n == 0x2028 || n == 0x2029 || n == 0x202F
    || n == 0x205F || n == 0x3000

/-- A text without the white space at its end. -/
def trimRight (s : List Char) : List Char :=
  (s.reverse.dropWhile isBlank).reverse

/-- A text without the white space at both ends. -/
def trim (s : List Char) : List Char :=
  trimRight (s.dropWhile isBlank)

end IncludeAtlas.Blank
