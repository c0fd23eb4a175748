/-!
# What stands between the parts of a TOML text

Blanks, line ends and comments.  A line ends with a line feed or with a carriage return
and a line feed; a carriage return alone has no place in a text.

## Main Definitions

* `unifyLines`: a text with all its line ends as line feeds
* `skipBlanks`: a text without the blanks it starts with
* `gap`: a text without the blanks, line feeds and comments it starts with
* `lineEnd?`: what follows the rest of a line that may hold only a comment

## Design notes

The line ends of a whole text are unified before anything else is read, so that all
other readers know the line feed alone and refuse what is left of carriage returns.
-/

namespace IncludeAtlas.Toml

/-- A text with all its line ends as line feeds. -/
def unifyLines : List Char → List Char
  | [] => []
  | '\r' :: '\n' :: rest => '\n' :: unifyLines rest
  | c :: rest => c :: unifyLines rest

/-- Whether a character is a blank. -/
def isBlank (c : Char) : Bool :=
  c == ' ' || c == '\t'

/-- Whether a character may stand in a comment and, quotes and backslashes apart, in a
quoted text: everything but the control characters of ASCII other than the tab. -/
def isPlain (c : Char) : Bool :=
  c == '\t' || (0x20 ≤ c.toNat && c.toNat != 0x7F)

/-- A text without the blanks it starts with. -/
def skipBlanks (s : List Char) : List Char :=
  s.dropWhile isBlank

/-- A text without the blanks, line feeds and comments it starts with.  The flag says
whether the text starts inside a comment. -/
def skipGap : Bool → List Char → List Char
  | _, [] => []
  | true, c :: rest =>
    if isPlain c then skipGap true rest
    else if c = '\n' then skipGap false rest
    else c :: rest
  | false, c :: rest =>
    if isBlank c ∨ c = '\n' then skipGap false rest
    else if c = '#' then skipGap true rest
    else c :: rest

/-- A text without the blanks, line feeds and comments it starts with. -/
def gap (s : List Char) : List Char :=
  skipGap false s

/-- What follows the comment that a text starts with, if it does. -/
def skipComment : List Char → List Char
  | '#' :: rest => rest.dropWhile isPlain
  | s => s

/-- What follows the rest of a line that may hold nothing but blanks and a comment.  The
end of the text ends a line too. -/
def lineEnd? (s : List Char) : Option (List Char) :=
  match skipComment (skipBlanks s) with
  | [] => some []
  | '\n' :: rest => some rest
  | _ => none

end IncludeAtlas.Toml
