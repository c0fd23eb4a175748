import IncludeAtlas.Text.Printable

/-!
# Quoted text

A text between quotation marks in a message, such that every character can be
told: the quote and the backslash are escaped, the common controls have a letter,
and every other character that is not printable is given by its number.

## Main Definitions

* `escape`: what stands for one character
* `quote`: a whole text
-/

namespace IncludeAtlas.Quoted

/-- The digits of a number in base sixteen, in lower case. -/
def hex (n : Nat) : List Char :=
  Nat.toDigits 16 n

/-- What stands for one character inside the quotes. -/
def escape (c : Char) : List Char :=
  if c = '"' then ['\\', '"']
  else if c = '\\' then ['\\', '\\']
  else if c = '\n' then ['\\', 'n']
  else if c = '\r' then ['\\', 'r']
  else if c = '\t' then ['\\', 't']
  else if c.toNat = 0 then ['\\', '0']
  else if Printable.isPrintable c then [c]
  else ['\\', 'u', '\x7b'] ++ hex c.toNat ++ ['\x7d']

/-- A text with its quotation marks. -/
def quote (s : String) : String :=
  String.ofList (['"'] ++ s.toList.flatMap escape ++ ['"'])

end IncludeAtlas.Quoted
