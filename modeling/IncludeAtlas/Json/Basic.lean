/-!
# JSON values

The syntax of a JSON text without its blanks.  Nothing that a reader may want to judge
is lost: a number keeps its digits, a string its escaped code units, an object the
order and the repetitions of its members.

## Main Definitions

* `Json`: a value
* `Json.Number`: a number as it is spelled
* `Json.Unit`: one element of a string
* `Json.text?`: the text of a string, if its code units pair up
-/

namespace IncludeAtlas

namespace Json

/-- A number as it is spelled: digits, digits after the point, and an exponent with
its sign. -/
structure Number where
  negative : Bool
  whole : List Char
  fraction : Option (List Char)
  exponent : Option (Bool × List Char)
  deriving DecidableEq, Repr

/-- One element of a string: a character, or a code unit of 16 bits given by its
number. -/
inductive Unit where
  | char (c : Char)
  | code (n : Nat)
  deriving DecidableEq, Repr

/-- The characters of a string.  A code unit outside the surrogates is a character;
surrogates have to stand in pairs, a high one directly before a low one. -/
def text? : List Unit → Option (List Char)
  | [] => some []
  | .char c :: rest => (text? rest).map (c :: ·)
  | .code n :: rest =>
    if n < 0xD800 ∨ 0xE000 ≤ n then (text? rest).map (Char.ofNat n :: ·)
    else if n < 0xDC00 then
      match rest with
      | .code m :: rest' =>
        if 0xDC00 ≤ m ∧ m < 0xE000 then
          (text? rest').map (Char.ofNat (0x10000 + (n - 0xD800) * 0x400 + (m - 0xDC00)) :: ·)
        else none
      | _ => none
    else none

/-- The elements of a text. -/
def unitsOf (s : String) : List Unit :=
  s.toList.map Unit.char

end Json

/-- A JSON value. -/
inductive Json where
  | null
  | bool (b : Bool)
  | number (n : Json.Number)
  | string (units : List Json.Unit)
  | array (elements : List Json)
  | object (members : List (List Json.Unit × Json))
  deriving Repr

namespace Json

/-- A text as a value. -/
def ofText (s : String) : Json :=
  .string (unitsOf s)

end Json

end IncludeAtlas
