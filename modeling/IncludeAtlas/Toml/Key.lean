import IncludeAtlas.Toml.Quoted

/-!
# Keys of TOML

A key is a word of letters, digits, hyphens and underscores, or a quoted text on one line.
Keys with points between them name a place below tables.

## Main Definitions

* `key?`: one key
* `keyPath?`: keys with points between them
* `depthBound`: how deep a text may lead into tables and arrays
-/

namespace IncludeAtlas.Toml

/-- How many keys may stand in a row, and how many arrays and tables in one another. -/
def depthBound : Nat := 79

/-- Whether a character may stand in a key without quotes. -/
def isKeyChar (c : Char) : Bool :=
  ('a' ≤ c && c ≤ 'z') || ('A' ≤ c && c ≤ 'Z') || ('0' ≤ c && c ≤ '9') || c == '-' || c == '_'

/-- A key without quotes. -/
def bareKey? (s : List Char) : Option (List Char × List Char) :=
  match s.takeWhile isKeyChar with
  | [] => none
  | k => some (k, s.dropWhile isKeyChar)

/-- A key. -/
def key? (s : List Char) : Option (String × List Char) :=
  ((lineText? s).or (bareKey? s)).map fun (k, rest) => (String.ofList k, rest)

/-- At most `n` keys with points between them and blanks around them. -/
def keyRow? : Nat → List Char → Option (List String × List Char)
  | 0, _ => none
  | n + 1, s => do
    let (k, s) ← key? (skipBlanks s)
    match skipBlanks s with
    | '.' :: s =>
      let (ks, s) ← keyRow? n s
      return (k :: ks, s)
    | s => return ([k], s)

/-- Keys with points between them. -/
def keyPath? (s : List Char) : Option (List String × List Char) :=
  keyRow? depthBound s

end IncludeAtlas.Toml
