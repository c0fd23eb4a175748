/-!
# Lines

A text is a sequence of lines, each ended by a line feed except perhaps the last.
One carriage return immediately before the line feed belongs to the line end; a
carriage return anywhere else, also at the very end of the text, belongs to its
line.

## Main Definitions

* `split`: the lines that are ended, and what follows the last line feed
* `lines`: all lines; nothing after the last line feed is no line

## Design notes

The element type is a parameter, since the same rule reads files as characters
and as bytes.
-/

namespace IncludeAtlas.Lines

variable {α : Type} [DecidableEq α]

/-- The pieces between line feeds: the ended ones, and the piece after the last
line feed. -/
def split (feed : α) : List α → List (List α) × List α
  | [] => ([], [])
  | c :: cs =>
    let (ended, last) := split feed cs
    if c = feed then ([] :: ended, last)
    else
      match ended with
      | [] => ([], c :: last)
      | line :: rest => ((c :: line) :: rest, last)

/-- A line without the one carriage return that may end it. -/
def dropReturn (ret : α) (line : List α) : List α :=
  if line.getLast? = some ret then line.dropLast else line

/-- The lines of a sequence of characters or bytes. -/
def lines (feed ret : α) (s : List α) : List (List α) :=
  let (ended, last) := split feed s
  ended.map (dropReturn ret) ++ if last.isEmpty then [] else [last]

end IncludeAtlas.Lines
