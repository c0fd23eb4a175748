import IncludeAtlas.Json.Number

/-!
# Written JSON

Two layouts of a value: compact, without any blank, and spread over lines, one
element or member a line and four spaces deeper than what holds it.

## Main Definitions

* `Json.compact`: the value on one line
* `Json.spread`: the value over lines

## Design notes

The layouts share everything but the blanks.  An empty array or object is written
without any, and a colon is followed by a space in the second layout only.
-/

namespace IncludeAtlas.Json

/-- The four digits of a number in base sixteen, in lower case. -/
def hex4 (n : Nat) : List Char :=
  let ds := Nat.toDigits 16 n
  List.replicate (4 - ds.length) '0' ++ ds

/-- How a character stands in a string. -/
def escape (c : Char) : List Char :=
  if c = '"' then ['\\', '"']
  else if c = '\\' then ['\\', '\\']
  else if c = '\n' then ['\\', 'n']
  else if c = '\r' then ['\\', 'r']
  else if c = '\t' then ['\\', 't']
  else if c.toNat = 0x8 then ['\\', 'b']
  else if c.toNat = 0xC then ['\\', 'f']
  else if c.toNat < 0x20 then '\\' :: 'u' :: hex4 c.toNat
  else [c]

/-- How an element of a string is written. -/
def renderUnit : Unit → List Char
  | .char c => escape c
  | .code n => '\\' :: 'u' :: hex4 n

/-- A string with its quotes. -/
def renderString (units : List Unit) : List Char :=
  '"' :: units.flatMap renderUnit ++ ['"']

mutual

/-- The value without blanks. -/
def compact : Json → List Char
  | .null => "null".toList
  | .bool b => (if b then "true" else "false").toList
  | .number n => n.render
  | .string units => renderString units
  | .array elements => '[' :: compactElements elements ++ [']']
  | .object members => '\x7b' :: compactMembers members ++ ['\x7d']

/-- The elements of an array with commas between them. -/
def compactElements : List Json → List Char
  | [] => []
  | [v] => compact v
  | v :: w :: rest => compact v ++ ',' :: compactElements (w :: rest)

/-- The members of an object with commas between them. -/
def compactMembers : List (List Unit × Json) → List Char
  | [] => []
  | [(k, v)] => renderString k ++ ':' :: compact v
  | (k, v) :: m :: rest => renderString k ++ ':' :: compact v ++ ',' :: compactMembers (m :: rest)

end

/-- A line feed and the blanks that a line starts with at some depth. -/
def newline (depth : Nat) : List Char :=
  '\n' :: List.replicate (4 * depth) ' '

mutual

/-- The value over lines, its own first line at the given depth. -/
def spread (depth : Nat) : Json → List Char
  | .null => "null".toList
  | .bool b => (if b then "true" else "false").toList
  | .number n => n.render
  | .string units => renderString units
  | .array [] => ['[', ']']
  | .array (v :: rest) =>
    '[' :: newline (depth + 1) ++ spreadElements (depth + 1) (v :: rest) ++ newline depth ++ [']']
  | .object [] => ['\x7b', '\x7d']
  | .object (m :: rest) =>
    '\x7b' :: newline (depth + 1) ++ spreadMembers (depth + 1) (m :: rest) ++ newline depth
      ++ ['\x7d']

/-- The elements of an array, each on a line of its own. -/
def spreadElements (depth : Nat) : List Json → List Char
  | [] => []
  | [v] => spread depth v
  | v :: w :: rest => spread depth v ++ ',' :: newline depth ++ spreadElements depth (w :: rest)

/-- The members of an object, each on a line of its own. -/
def spreadMembers (depth : Nat) : List (List Unit × Json) → List Char
  | [] => []
  | [(k, v)] => renderString k ++ ':' :: ' ' :: spread depth v
  | (k, v) :: m :: rest =>
    renderString k ++ ':' :: ' ' :: spread depth v ++ ',' :: newline depth
      ++ spreadMembers depth (m :: rest)

end

end IncludeAtlas.Json
