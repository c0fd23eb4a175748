import IncludeAtlas.Glob.Parser
import IncludeAtlas.Glob.Match
import IncludeAtlas.Text.Blank
import IncludeAtlas.Text.Lines

/-!
# Rules of ignore files

An ignore file has a rule on each line: a pattern for the paths below the file's
directory, which are to be ignored or, after a `!`, to be kept.

## Main Definitions

* `Rule`: one line of an ignore file
* `Rule.parse?`: the rule of a line
* `Rule.readAll`: the rules of a file
* `Verdict`, `Rule.judge`: what a row of rules says of a path

## Design notes

The last rule that matches decides.  A pattern without a slash matches in every directory
below; a slash at the end restricts a rule to directories, and one at the start ties it to
the directory of the file.  A line that is no pattern counts as blank, and a file is read
only as far as it is text.
-/

namespace IncludeAtlas

/-- A line of an ignore file. -/
structure Rule where
  pattern : List Glob.Token
  /-- Whether the rule keeps what it matches. -/
  keeps : Bool
  /-- Whether the rule is for directories only. -/
  directories : Bool
  deriving Repr

/-- What rules say of a path. -/
inductive Verdict where
  | none
  | ignored
  | kept
  deriving DecidableEq, Repr

/-- The first of two verdicts that says anything. -/
def Verdict.or : Verdict → Verdict → Verdict
  | .none, v => v
  | v, _ => v

namespace Rule

/-- The line without white space at its end, unless that is escaped. -/
def trimmed (line : List Char) : List Char :=
  if ['\\', ' '].isSuffixOf line then line else Blank.trimRight line

/-- A pattern in two parts: whether it keeps, and whether it is tied to the directory of
the file, with the marks for both taken off. -/
def marks : List Char → Bool × Bool × List Char
  | '\\' :: '!' :: rest => (false, false, '!' :: rest)
  | '\\' :: '#' :: rest => (false, false, '#' :: rest)
  | '!' :: '/' :: rest => (true, true, rest)
  | '!' :: rest => (true, false, rest)
  | '/' :: rest => (false, true, rest)
  | s => (false, false, s)

/-- A pattern without the slash at its end, and whether there was one.  A backslash before
the slash goes with it. -/
def directoryMark (s : List Char) : Bool × List Char :=
  match s.reverse with
  | '/' :: '\\' :: rest => (true, rest.reverse)
  | '/' :: rest => (true, rest.reverse)
  | _ => (false, s)

/-- Lets a pattern match in every directory, unless it names one. -/
def anywhere (tied : Bool) (s : List Char) : List Char :=
  if tied || s.contains '/' || s == ['*', '*'] then s else ['*', '*', '/'] ++ s

/-- Makes a pattern for everything in a directory pass over the directory itself. -/
def inside (s : List Char) : List Char :=
  if ['/', '*', '*'].isSuffixOf s then s ++ ['/', '*'] else s

/-- The rule of a line, if it has one. -/
def parse? (line : List Char) : Option Rule :=
  if line.head? = some '#' then none
  else
    let s := trimmed line
    if s.isEmpty then none
    else
      let (keeps, tied, s) := marks s
      let (directories, s) := directoryMark s
      match Glob.parse true (String.ofList (inside (anywhere tied s))) with
      | .ok pattern => some ⟨pattern, keeps, directories⟩
      | .error _ => none

/-- The texts of the lines up to the first that is no text. -/
def texts : List Bytes → List String
  | [] => []
  | line :: rest =>
    match Utf8.decode? line with
    | some s => s :: texts rest
    | none => []

/-- The byte order mark, which may stand at the start of a file. -/
def byteOrderMark : Char := '\uFEFF'

/-- The rules of a file. -/
def readAll (content : Bytes) : List Rule :=
  let lines := texts (Lines.lines 0x0A 0x0D content)
  match lines with
  | [] => []
  | first :: rest =>
    (first.toList.dropWhile (· == byteOrderMark) :: rest.map String.toList).filterMap parse?

/-- Whether a rule matches a path below its directory. -/
def applies (r : Rule) (path : Bytes) (isDirectory : Bool) : Bool :=
  (!r.directories || isDirectory) && Glob.accepts true r.pattern path

/-- What a row of rules says of a path. -/
def judge (rules : List Rule) (path : Bytes) (isDirectory : Bool) : Verdict :=
  match rules.reverse.find? fun r => r.applies path isDirectory with
  | some r => if r.keeps then .kept else .ignored
  | none => .none

end Rule

end IncludeAtlas
