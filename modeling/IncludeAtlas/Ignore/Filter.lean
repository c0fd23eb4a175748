import IncludeAtlas.Ignore.Rule
import IncludeAtlas.FileTree.Resolve

/-!
# Ignored entries

Which entries of a tree are passed over when ignore files are honored: what some rule
ignores, and hidden entries that no rule keeps.

## Main Definitions

* `Level`: the rules that a directory brings
* `Workspace.level`: the rules of one directory
* `Level.judge`: what the rules of all directories around an entry say
* `Workspace.skips`: whether an entry is passed over

## Design notes

Three files bring rules, in the order of their weight: `.ignore` in any directory,
`.gitignore` in any directory, and the exclude file of a repository.  Of each kind the
file nearest to the entry that says anything is asked.  The last two kinds count only
inside a repository, and only up to the directory that holds it.
-/

namespace IncludeAtlas

/-- The rules that a directory brings. -/
structure Level where
  directory : Location
  ignore : List Rule
  repositoryIgnore : List Rule
  exclude : List Rule
  /-- Whether the directory holds a repository. -/
  isRepository : Bool

namespace Workspace

/-- The rules of a file, if it can be read. -/
def rules (w : Workspace) (p : Path) : List Rule :=
  match w.read p with
  | .ok content => Rule.readAll content
  | .error _ => []

/-- The first line of a file, if it is text. -/
def firstLine? (w : Workspace) (p : Path) : Option String :=
  match w.read p with
  | .ok content => (Rule.texts (Lines.lines 0x0A 0x0D content)).head?
  | .error _ => none

/-- What the line that points to a repository elsewhere starts with. -/
def pointerMark : List Char := "gitdir: ".toList

/-- The directory with the common files of a repository that a file points to: the file
names a directory, and a file in there the common one. -/
def commonDirectory? (w : Workspace) (pointer : Path) : Option Path := do
  let line ← w.firstLine? pointer
  if pointerMark.isPrefixOf line.toList then
    let own := Path.ofString (String.ofList (line.toList.drop pointerMark.length))
    let common ← w.firstLine? (own.join (Path.ofString "commondir"))
    if common.toList.head? = some '.' then return own.join (Path.ofString common)
    else return Path.ofString common
  else none

/-- The rules of one directory. -/
def level (w : Workspace) (l : Location) : Level :=
  let inside (name : String) := l.toPath.join (Path.ofString name)
  let repository := inside ".git"
  let exclude :=
    match w.entry? repository with
    | some (.file _) => w.commonDirectory? repository
    | _ => some repository
  { directory := l
    ignore := w.rules (inside ".ignore")
    repositoryIgnore := w.rules (inside ".gitignore")
    exclude := match exclude with
      | some p => w.rules (p.join (Path.ofString "info/exclude"))
      | none => []
    isRepository := (w.entry? repository).isSome || (w.entry? (inside ".jj")).isSome }

end Workspace

namespace Level

/-- The path of an entry below the directory of a level. -/
def pathBelow (v : Level) (l : Location) : Bytes :=
  List.intercalate [slash] (l.drop v.directory.length)

/-- The first verdict that says anything. -/
def firstVerdict (verdicts : List Verdict) : Verdict :=
  verdicts.foldr Verdict.or .none

/-- The levels up to the one that holds a repository, from the inside out, or none if
there is no repository. -/
def withinRepository : List Level → List Level
  | [] => []
  | v :: rest =>
    if v.isRepository then [v]
    else
      match withinRepository rest with
      | [] => []
      | vs => v :: vs

/-- What the rules around an entry say of it, given the levels from the inside out. -/
def judge (levels : List Level) (l : Location) (isDirectory : Bool) : Verdict :=
  let inner := withinRepository levels
  let ask (rules : Level → List Rule) (vs : List Level) :=
    firstVerdict (vs.map fun v => Rule.judge (rules v) (v.pathBelow l) isDirectory)
  (ask ignore levels).or ((ask repositoryIgnore inner).or (ask exclude inner))

end Level

/-- Whether an entry is hidden by its name: a dot begins it, and none ends it. -/
def isHidden (l : Location) : Bool :=
  match l.getLast? with
  | some n => n.head? == some 0x2E && n.getLast? != some 0x2E
  | none => false

/-- Whether an entry is passed over, given the levels around it from the inside out. -/
def skips (levels : List Level) (l : Location) (e : Entry) : Bool :=
  match Level.judge levels l (e = .directory) with
  | .ignored => true
  | .kept => false
  | .none => isHidden l

namespace Workspace

/-- The levels of a directory and of all directories above it, from the inside out. -/
def levelsFrom (w : Workspace) (l : Location) : List Level :=
  (List.range (l.length + 1)).reverse.map fun k => w.level (l.take k)

/-- The entries below a directory that neither are passed over nor stand in a directory
below it that is.  The levels of all directories are read once. -/
def filtered (w : Workspace) (root : Location) : List (Location × Entry) :=
  let entries := w.tree.listed.below root
  let directories := (entries.filter fun e => e.2 = .directory).map Prod.fst
  let levels := w.levelsFrom root
  let inner := directories.map w.level
  let around (l : Location) : List Level :=
    ((inner.filter fun v => v.directory.isPrefixOf l && v.directory ≠ l).reverse) ++ levels
  let skipped := (entries.filter fun e => skips (around e.1) e.1 e.2).map Prod.fst
  entries.filter fun e => !skipped.any fun l => l.isPrefixOf e.1

end Workspace

end IncludeAtlas
