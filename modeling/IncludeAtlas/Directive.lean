import IncludeAtlas.Text.Lines
import IncludeAtlas.Ordered

/-!
# Include directives

Which tokens a source text includes.  A directive fills a whole line: `#include`, one
space, and the token between quotes or angle brackets.  Nothing may stand before or
after it, and the token may hold anything but its own closing delimiter.

## Main Definitions

* `token?`: the token of a line that is a directive
* `tokens`: the tokens of a source text, in ascending order without repetitions

## Design notes

Lines that look like directives inside comments or untaken conditional branches count
as well: a line is judged by itself.
-/

namespace IncludeAtlas.Directive

/-- What a directive starts with. -/
def head : List Char := "#include ".toList

/-- A token up to its closing delimiter, which has to end the line. -/
def closed? (closing : Char) (s : List Char) : Option (List Char) :=
  if s.dropWhile (· ≠ closing) = [closing] then some (s.takeWhile (· ≠ closing)) else none

/-- The token of a line that is a directive. -/
def token? (line : List Char) : Option (List Char) :=
  if head.isPrefixOf line then
    match line.drop head.length with
    | '"' :: rest => closed? '"' rest
    | '<' :: rest => closed? '>' rest
    | _ => none
  else none

/-- The tokens of a source text, by code points. -/
def tokens (source : String) : List String :=
  Ordered.ofList id <|
    ((Lines.lines '\n' '\r' source.toList).filterMap token?).map String.ofList

end IncludeAtlas.Directive
