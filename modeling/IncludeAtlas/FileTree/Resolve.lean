import IncludeAtlas.FileTree.Basic
import IncludeAtlas.FileTree.Fault

/-!
# What a path denotes

Following a path through a tree, from a directory and segment by segment, through every
symbolic link on the way.  The result is a location: a path from the root without dots
and links.

## Main Definitions

* `FileTree.resolve`: the location that a row of segments leads to
* `FileTree.canonical`: the same when every place on the way is looked up under its own path
* `Workspace`: a tree together with the directory that relative paths start from
* `Workspace.locate`: the location that a path denotes
* `Workspace.canonicalize`: the same for a path that is followed name by name
* `Workspace.isDirectory`, `Workspace.read`, `Workspace.readText`

## Design notes

An empty segment or a dot stays where it is, and where it is has to be a directory: a
file with anything after it, be it a single slash, is refused.  `..` goes up from where
the links have led, not from where the spelling was.  At most forty links are followed on
one path.

What is opened or looked at is given as it is spelled, and the spelling must not be too
long; how far down it leads does not matter.  What is made canonical is followed name by
name, and each place on the way is looked up under the path it has from the root: it is that
path that must not be too long.  So a path that owes its length to slashes and dots can be
made canonical and not opened, and one that leads far down through links can be opened and
not made canonical.

Where a spelling goes on with a slash, a library may look a directory up with a slash after
its path, which is then a byte longer.  That byte is not counted.
-/

namespace IncludeAtlas

/-- How many links are followed on one path. -/
def linkBound : Nat := 40

/-- Where a path starts: at the root, or in a given directory. -/
def Path.startFrom (p : Path) (cur : Location) : Location :=
  if p.isAbsolute then [] else cur

/-- The location that segments lead to from a directory. -/
def FileTree.resolve (t : FileTree) (links : Nat) (cur : Location) :
    List Bytes → Except IoFault Location
  | [] => .ok cur
  | s :: rest =>
    if s = [] ∨ s = dot then t.resolve links cur rest
    else if s = dotDot then t.resolve links cur.dropLast rest
    else if nameBound < s.length then .error .nameTooLong
    else
      match t.lookup? (cur ++ [s]) with
      | none => .error .notFound
      | some .directory => t.resolve links (cur ++ [s]) rest
      | some (.file _) => if rest = [] then .ok (cur ++ [s]) else .error .notADirectory
      | some (.link target) =>
        match links with
        | 0 => .error .tooManyLinks
        | n + 1 => t.resolve n (target.startFrom cur) (target.segments ++ rest)
termination_by segments => (links, segments.length)

/-- The location that segments lead to from a directory, if every entry on the way has a path
that is short enough to be looked up. -/
def FileTree.canonical (t : FileTree) (links : Nat) (cur : Location) :
    List Bytes → Except IoFault Location
  | [] => .ok cur
  | s :: rest =>
    if s = [] ∨ s = dot then t.canonical links cur rest
    else if s = dotDot then t.canonical links cur.dropLast rest
    else if nameBound < s.length ∨ ¬ Location.Short (cur ++ [s]) then .error .nameTooLong
    else
      match t.lookup? (cur ++ [s]) with
      | none => .error .notFound
      | some .directory => t.canonical links (cur ++ [s]) rest
      | some (.file _) => if rest = [] then .ok (cur ++ [s]) else .error .notADirectory
      | some (.link target) =>
        match links with
        | 0 => .error .tooManyLinks
        | n + 1 => t.canonical n (target.startFrom cur) (target.segments ++ rest)
termination_by segments => (links, segments.length)

/-- A tree and the directory that relative paths start from. -/
structure Workspace where
  tree : FileTree
  directory : Location

namespace Workspace

/-- The fault of a spelling that denotes nothing in any tree. -/
def spellingFault? (p : Path) : Option IoFault :=
  if 0 ∈ p.bytes then some .nulByte
  else if p.bytes = [] then some .notFound
  else if pathBound ≤ p.bytes.length then some .nameTooLong
  else none

/-- The location that a path denotes. -/
def locate (w : Workspace) (p : Path) : Except IoFault Location :=
  match spellingFault? p with
  | some fault => .error fault
  | none => w.tree.resolve linkBound (p.startFrom w.directory) p.segments

/-- The location that a path leads to, followed name by name, so that its spelling may be
of any length. -/
def canonicalize (w : Workspace) (p : Path) : Except IoFault Location :=
  match spellingFault? p with
  | none | some .nameTooLong =>
    w.tree.canonical linkBound (p.startFrom w.directory) p.segments
  | some fault => .error fault

/-- The entry that a path denotes. -/
def entry? (w : Workspace) (p : Path) : Option Entry :=
  match w.locate p with
  | .ok l => w.tree.lookup? l
  | .error _ => none

/-- Whether a path denotes a directory. -/
def isDirectory (w : Workspace) (p : Path) : Bool :=
  w.entry? p == some .directory

/-- The content of the file at a location. -/
def contentAt (w : Workspace) (l : Location) : Except IoFault Bytes :=
  match w.tree.lookup? l with
  | some (.file content) => .ok content
  | some .directory => .error .isADirectory
  | _ => .error .notFound

/-- The content of the file that a path denotes. -/
def read (w : Workspace) (p : Path) : Except IoFault Bytes := do
  w.contentAt (← w.locate p)

/-- The content of the file that a path denotes, as text. -/
def readText (w : Workspace) (p : Path) : Except IoFault String := do
  match Utf8.decode? (← w.read p) with
  | some s => .ok s
  | none => .error .notText

end Workspace

end IncludeAtlas
