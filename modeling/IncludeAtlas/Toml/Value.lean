import IncludeAtlas.Toml.Key
import IncludeAtlas.Toml.Moment
import IncludeAtlas.Toml.Section

/-!
# Reading TOML values

A value is a text, a number, a date, a truth value, an array or an inline table.

## Main Definitions

* `elements?`, `assignments?`: what stands between the brackets of an array or an inline
  table
* `value?`: a value

## Design notes

Arrays may run over lines, with comments, and may end in a comma.  An inline table stands
on one line and does not end in a comma.  The readers of brackets take the reader of what
is in them, and how many elements they may still read; a text cannot hold more elements
than characters.
-/

namespace IncludeAtlas.Toml

/-- A reader: what stands at the start of a text, and what follows. -/
abbrev Reader (α : Type) := List Char → Option (α × List Char)

/-- The elements of an array from behind its opening bracket or a comma. -/
def elements? (element : Reader Toml) : Nat → Reader (List Toml)
  | 0, _ => none
  | n + 1, s =>
    match gap s with
    | ']' :: rest => some ([], rest)
    | s => do
      let (v, s) ← element s
      match gap s with
      | ',' :: s =>
        let (vs, s) ← elements? element n s
        return (v :: vs, s)
      | ']' :: s => return ([v], s)
      | _ => none

/-- One assignment: keys with points between them, and the value. -/
def assignment? (value : Reader Toml) : Reader (List String × Toml) := fun s => do
  let (path, s) ← keyPath? s
  let s ← expect? '=' s
  let (v, s) ← value (skipBlanks s)
  return ((path, v), s)

/-- The assignments of an inline table from behind its opening bracket or a comma. -/
def moreAssignments? (value : Reader Toml) : Nat → Reader (List (List String × Toml))
  | 0, _ => none
  | n + 1, s => do
    let (a, s) ← assignment? value s
    match skipBlanks s with
    | ',' :: s =>
      let (as, s) ← moreAssignments? value n s
      return (a :: as, s)
    | '\x7d' :: s => return ([a], s)
    | _ => none

/-- The assignments of an inline table from behind its opening bracket. -/
def assignments? (value : Reader Toml) : Reader (List (List String × Toml)) := fun s =>
  match skipBlanks s with
  | '\x7d' :: rest => some ([], rest)
  | _ => moreAssignments? value s.length s

/-- A value that is neither an array nor a table. -/
def scalarValue? (s : List Char) : Option (Toml × List Char) :=
  match s with
  | 't' :: 'r' :: 'u' :: 'e' :: rest => some (.boolean true, rest)
  | 'f' :: 'a' :: 'l' :: 's' :: 'e' :: rest => some (.boolean false, rest)
  | _ =>
    match quotedText? s with
    | some (t, rest) => some (.text (String.ofList t), rest)
    | none => (moment? s).or (number? s)

/-- A value with at most a given number of arrays and tables in one another. -/
def value? : Nat → Reader Toml
  | n + 1, '[' :: s =>
    (elements? (value? n) s.length s).map fun (vs, rest) => (.array vs, rest)
  | n + 1, '\x7b' :: s => do
    let (as, rest) ← assignments? (value? n) s
    return ((← Section.ofAssignments? as).toToml, rest)
  | _, s => scalarValue? s

end IncludeAtlas.Toml
