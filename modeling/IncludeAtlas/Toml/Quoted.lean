import IncludeAtlas.Toml.Gap
import IncludeAtlas.Text.Digit

/-!
# Quoted texts of TOML

A text stands between double quotes, with escapes, or between single quotes, as it is.
Either kind may run over several lines if its quotes are written three times.

## Main Definitions

* `basicRest?`, `literalRest?`: a text on one line, from behind its opening quote
* `basicLinesRest?`, `literalLinesRest?`: a text over several lines, from behind its
  opening quotes
* `lineText?`, `quotedText?`: a text on one line, or of any kind, with its quotes

## Design notes

In a text over several lines, a line feed directly after the opening quotes is dropped,
and one or two quotes are quotes; since two of them may also stand directly before the
closing three, up to five in a row close.  A backslash at the end of a line hides the line
feed and all blanks and line feeds after it.
-/

namespace IncludeAtlas.Toml

/-- The character whose number is spelled in base sixteen.  Surrogates are none. -/
def scalar? (ds : List Char) : Option Char := do
  guard (ds.all fun c => (Digit.hex? c).isSome)
  let n := Digit.value 16 ds
  if n < 0xD800 ∨ (0xE000 ≤ n ∧ n < 0x110000) then some (Char.ofNat n) else none

/-- The character that a letter after a backslash names. -/
def escaped? (c : Char) : Option Char :=
  if c = '"' ∨ c = '\\' then some c
  else if c = 'b' then some (Char.ofNat 0x8)
  else if c = 'f' then some (Char.ofNat 0xC)
  else if c = 'n' then some '\n'
  else if c = 'r' then some '\r'
  else if c = 't' then some '\t'
  else none

/-- Puts a character before a text that was read. -/
def prepend (c : Char) (r : Option (List Char × List Char)) : Option (List Char × List Char) :=
  r.map fun (s, rest) => (c :: s, rest)

/-- A text with escapes on one line up to its closing quote, and what follows. -/
def basicRest? : List Char → Option (List Char × List Char)
  | [] => none
  | '"' :: rest => some ([], rest)
  | '\\' :: 'u' :: a :: b :: c :: d :: rest =>
    (scalar? [a, b, c, d]).bind fun x => prepend x (basicRest? rest)
  | '\\' :: 'U' :: a :: b :: c :: d :: e :: f :: g :: h :: rest =>
    (scalar? [a, b, c, d, e, f, g, h]).bind fun x => prepend x (basicRest? rest)
  | '\\' :: e :: rest => (escaped? e).bind fun x => prepend x (basicRest? rest)
  | c :: rest => if c = '\\' ∨ ¬ isPlain c then none else prepend c (basicRest? rest)

/-- A text without escapes on one line up to its closing quote, and what follows. -/
def literalRest? : List Char → Option (List Char × List Char)
  | [] => none
  | '\'' :: rest => some ([], rest)
  | c :: rest => if isPlain c then prepend c (literalRest? rest) else none

/-- Where the reading of a text over several lines is: inside the text, behind a
backslash that has to end its line, or behind such a line. -/
inductive Fold where
  | inside
  | ending
  | ended
  deriving DecidableEq, Repr

/-- A text with escapes over several lines up to its closing quotes, and what follows. -/
def basicLinesRest? : Fold → List Char → Option (List Char × List Char)
  | _, [] => none
  | .ending, c :: rest =>
    if c = '\n' then basicLinesRest? .ended rest
    else if isBlank c then basicLinesRest? .ending rest
    else none
  | _, '"' :: '"' :: '"' :: '"' :: '"' :: rest => some (['"', '"'], rest)
  | _, '"' :: '"' :: '"' :: '"' :: rest => some (['"'], rest)
  | _, '"' :: '"' :: '"' :: rest => some ([], rest)
  | _, '\\' :: 'u' :: a :: b :: c :: d :: rest =>
    (scalar? [a, b, c, d]).bind fun x => prepend x (basicLinesRest? .inside rest)
  | _, '\\' :: 'U' :: a :: b :: c :: d :: e :: f :: g :: h :: rest =>
    (scalar? [a, b, c, d, e, f, g, h]).bind fun x => prepend x (basicLinesRest? .inside rest)
  | _, '\\' :: e :: rest =>
    if e = '\n' then basicLinesRest? .ended rest
    else if isBlank e then basicLinesRest? .ending rest
    else (escaped? e).bind fun x => prepend x (basicLinesRest? .inside rest)
  | fold, c :: rest =>
    if fold = .ended ∧ (isBlank c ∨ c = '\n') then basicLinesRest? .ended rest
    else if c = '\n' ∨ (c ≠ '\\' ∧ isPlain c) then prepend c (basicLinesRest? .inside rest)
    else none

/-- A text without escapes over several lines up to its closing quotes, and what
follows. -/
def literalLinesRest? : List Char → Option (List Char × List Char)
  | [] => none
  | '\'' :: '\'' :: '\'' :: '\'' :: '\'' :: rest => some (['\'', '\''], rest)
  | '\'' :: '\'' :: '\'' :: '\'' :: rest => some (['\''], rest)
  | '\'' :: '\'' :: '\'' :: rest => some ([], rest)
  | c :: rest => if c = '\n' ∨ isPlain c then prepend c (literalLinesRest? rest) else none

/-- A text without the line feed it starts with, if it does. -/
def dropNewline : List Char → List Char
  | '\n' :: rest => rest
  | s => s

/-- A text on one line, with or without escapes, and what follows. -/
def lineText? : List Char → Option (List Char × List Char)
  | '"' :: rest => basicRest? rest
  | '\'' :: rest => literalRest? rest
  | _ => none

/-- A quoted text of any kind, and what follows. -/
def quotedText? : List Char → Option (List Char × List Char)
  | '"' :: '"' :: '"' :: rest => basicLinesRest? .inside (dropNewline rest)
  | '\'' :: '\'' :: '\'' :: rest => literalLinesRest? (dropNewline rest)
  | s => lineText? s

end IncludeAtlas.Toml
