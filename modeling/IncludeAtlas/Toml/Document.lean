import IncludeAtlas.Toml.Value

/-!
# TOML texts

A text is a row of lines, each with an assignment, the header of a table, or neither.

## Main Definitions

* `Line`: a line with content
* `lines?`: the lines of a text
* `Section.ofLines?`: the table that some lines build up
* `parse?`: the value of a text
-/

namespace IncludeAtlas.Toml

/-- A line with content. -/
inductive Line where
  | assignment (path : List String) (v : Toml)
  | header (path : List String)
  | arrayHeader (path : List String)

/-- A line, from its first character that is no blank. -/
def line? : Reader Line
  | '[' :: '[' :: s => do
    let (path, s) ← keyPath? s
    let s ← expect? ']' s
    let s ← expect? ']' s
    return (.arrayHeader path, ← lineEnd? s)
  | '[' :: s => do
    let (path, s) ← keyPath? s
    let s ← expect? ']' s
    return (.header path, ← lineEnd? s)
  | s => do
    let ((path, v), s) ← assignment? (value? depthBound) s
    return (.assignment path v, ← lineEnd? s)

/-- At most `n` lines with content, and nothing else but gaps. -/
def linesWithin? : Nat → List Char → Option (List Line)
  | 0, s => if gap s = [] then some [] else none
  | n + 1, s =>
    match gap s with
    | [] => some []
    | s => do
      let (l, s) ← line? s
      return l :: (← linesWithin? n s)

/-- The lines with content of a text. -/
def lines? (s : List Char) : Option (List Line) :=
  linesWithin? s.length s

namespace Section

/-- The table of a text with one more line, and the place of the table that the next
assignment belongs to. -/
def addLine? : Section × List String → Line → Option (Section × List String)
  | (t, place), .assignment path v => do
    let key ← path.getLast?
    let t ← within? .passed (fun _ t => t.assign? path.dropLast key v) .header place t
    return (t, place)
  | (t, _), .header path => do
    let key ← path.getLast?
    return (← t.open? path.dropLast key, path)
  | (t, _), .arrayHeader path => do
    let key ← path.getLast?
    return (← t.append? path.dropLast key, path)

/-- The table that some lines build up. -/
def ofLines? (ls : List Line) : Option Section :=
  (ls.foldlM addLine? ([], [])).map Prod.fst

end Section

/-- A text without the byte order mark it may start with. -/
def dropMark : List Char → List Char
  | '\uFEFF' :: rest => rest
  | s => s

/-- The value of a text. -/
def parse? (s : List Char) : Option Toml := do
  let ls ← lines? (unifyLines (dropMark s))
  return (← Section.ofLines? ls).toToml

end IncludeAtlas.Toml
