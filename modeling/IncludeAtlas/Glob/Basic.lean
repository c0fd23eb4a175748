/-!
# Glob patterns

A pattern for names and paths as the row of its parts, and the ways in which a text
can fail to be one.

## Main Definitions

* `Glob.Token`: a part of a pattern
* `Glob.Fault`, `GlobError`: why a text is no pattern
* `GlobError.message`: the wording

## Design notes

Two stars side by side mean "any directories" only as a whole segment of a path.  Where
they begin a pattern they are `leading`, where they end one `trailing`, and between two
slashes `between`; everywhere else they are two single stars.
-/

namespace IncludeAtlas

namespace Glob

/-- A part of a pattern. -/
inductive Token where
  /-- A character that stands for itself. -/
  | literal (c : Char)
  /-- Any one byte. -/
  | any
  /-- Any bytes. -/
  | star
  /-- Any directories at the start, or none. -/
  | leading
  /-- Anything in a directory. -/
  | trailing
  /-- Any directories between two names, or none. -/
  | between
  /-- One of the characters in some ranges, or one that is in none of them. -/
  | oneOf (negated : Bool) (ranges : List (Char × Char))
  /-- One of several patterns. -/
  | group (branches : List (List Token))
  deriving Repr

/-- Why a text is no pattern. -/
inductive Fault where
  | unclosedClass
  | invalidRange (first last : Char)
  | unopenedGroup
  | unclosedGroup
  | danglingEscape
  deriving DecidableEq, Repr

/-- The wording of a fault. -/
def Fault.message : Fault → String
  | .unclosedClass => "unclosed character class; missing ']'"
  | .invalidRange first last =>
    "invalid range; '" ++ String.singleton first ++ "' > '" ++ String.singleton last ++ "'"
  | .unopenedGroup =>
    "unopened alternate group; missing '\x7b' (maybe escape '\x7d' with '[\x7d]'?)"
  | .unclosedGroup =>
    "unclosed alternate group; missing '\x7d' (maybe escape '\x7b' with '[\x7b]'?)"
  | .danglingEscape => "dangling '\\'"

end Glob

/-- A text that is no pattern. -/
structure GlobError where
  pattern : String
  fault : Glob.Fault
  deriving DecidableEq, Repr

/-- The wording of the error. -/
def GlobError.message (e : GlobError) : String :=
  "error parsing glob '" ++ e.pattern ++ "': " ++ e.fault.message

end IncludeAtlas
