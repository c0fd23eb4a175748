import IncludeAtlas.FileTree.Resolve

/-!
# Changes by path

Making directories, writing files and making links under paths as they are spelled.

## Main Definitions

* `FileTree.target`: the location that a file is written to
* `Workspace.makeDirectory`: one directory, whose parent has to be there
* `Workspace.makeDirectories`: a directory with all missing ones above it
* `Workspace.write`: a file's content, the file being made if it is missing
* `Workspace.writeWithParents`: a file and the directories it needs
* `Workspace.makeLink`: a symbolic link
* `Workspace.removeAt`: an entry and everything below it

## Design notes

Writing follows a link in the last place, also to a file that is not there yet; making a
directory does not.  A spelling that ends in a slash or a dot never denotes a file to
write.  A change that fails half-way leaves the directories it has made.
-/

namespace IncludeAtlas

/-- The location of the file that is opened for writing under some segments, followed like any
other path except that nothing has to stand there yet. -/
def FileTree.target (t : FileTree) (links : Nat) (cur : Location) :
    List Bytes → Except IoFault Location
  | [] => .error .isADirectory
  | s :: rest =>
    if s = [] ∨ s = dot then t.target links cur rest
    else if s = dotDot then t.target links cur.dropLast rest
    else if rest ≠ [] ∧ ∀ r ∈ rest, r = [] then .error .isADirectory
    else if nameBound < s.length then .error .nameTooLong
    else
      match t.lookup? (cur ++ [s]) with
      | none => if rest = [] then .ok (cur ++ [s]) else .error .notFound
      | some .directory => t.target links (cur ++ [s]) rest
      | some (.file _) => if rest = [] then .ok (cur ++ [s]) else .error .notADirectory
      | some (.link target) =>
        match links with
        | 0 => .error .tooManyLinks
        | n + 1 => t.target n (target.startFrom cur) (target.segments ++ rest)
termination_by segments => (links, segments.length)

namespace Workspace

/-- The segments of a spelling without the empty ones at its end. -/
def trimmedSegments (p : Path) : List Bytes :=
  (p.segments.reverse.dropWhile (· == [])).reverse

/-- The directory that some segments lead to. -/
def directoryOf (w : Workspace) (cur : Location) (segments : List Bytes) :
    Except IoFault Location :=
  w.tree.resolve linkBound cur (segments ++ [[]])

/-- The tree with a new entry. -/
def withEntry (w : Workspace) (l : Location) (e : Entry) : Except IoFault Workspace :=
  match w.tree.insert? l e with
  | some tree => .ok { w with tree }
  | none => .error .notADirectory

/-- Puts an entry where a path says and nothing is yet.  A link in the last place is
something. -/
def makeEntry (w : Workspace) (p : Path) (e : Entry) : Except IoFault Workspace :=
  match spellingFault? p with
  | some fault => .error fault
  | none => do
    let cur := p.startFrom w.directory
    let segments := trimmedSegments p
    match segments.getLast? with
    | none => .error .alreadyExists
    | some s =>
      let parent ← w.directoryOf cur segments.dropLast
      if s = dot ∨ s = dotDot then .error .alreadyExists
      else if nameBound < s.length then .error .nameTooLong
      else if (w.tree.lookup? (parent ++ [s])).isSome then .error .alreadyExists
      else w.withEntry (parent ++ [s]) e

/-- Makes a directory. -/
def makeDirectory (w : Workspace) (p : Path) : Except IoFault Workspace :=
  w.makeEntry p .directory

/-- Makes a symbolic link. -/
def makeLink (w : Workspace) (p target : Path) : Except IoFault Workspace :=
  w.makeEntry p (.link target)

/-- Makes the directory of some components, given from the last one up, after those
above it.  A directory that is there already is fine, also if it is reached through a
link.  The result is the workspace as far as it came, and the fault if there was one. -/
def makeAll (w : Workspace) : List Component → Workspace × Option IoFault
  | [] => (w, none)
  | c :: rest =>
    let p := Path.ofComponents (c :: rest).reverse
    let unlessThere (w : Workspace) (fault : IoFault) :=
      (w, if w.isDirectory p then none else some fault)
    match w.makeDirectory p with
    | .ok w => (w, none)
    | .error .notFound =>
      match w.makeAll rest with
      | (w, some fault) => (w, some fault)
      | (w, none) =>
        match w.makeDirectory p with
        | .ok w => (w, none)
        | .error fault => unlessThere w fault
    | .error fault => unlessThere w fault

/-- Makes a directory and all that are missing above it. -/
def makeDirectories (w : Workspace) (p : Path) : Workspace × Option IoFault :=
  w.makeAll p.components.reverse

/-- Writes a file, whose directory has to be there. -/
def write (w : Workspace) (p : Path) (content : Bytes) : Except IoFault Workspace :=
  match spellingFault? p with
  | some fault => .error fault
  | none => do
    let l ← w.tree.target linkBound (p.startFrom w.directory) p.segments
    w.withEntry l (.file content)

/-- Segments without those in front that have no meaning. -/
def dropBlanks (segments : List Bytes) : List Bytes :=
  segments.dropWhile fun s => s = [] ∨ s = dot

/-- The directory of a path, spelled as the path is up to there. -/
def spelledParent (p : Path) : Path :=
  ⟨[slash].intercalate (dropBlanks ((dropBlanks p.segments.reverse).drop 1)).reverse⟩

/-- Writes a file after making its directory and all that are missing above it.  A directory
whose spelling is too long is not made, and neither is any above it. -/
def writeWithParents (w : Workspace) (p : Path) (content : Bytes) :
    Workspace × Option IoFault :=
  let (w, fault) :=
    match p.parent? with
    | some d =>
      if d.bytes = [] then (w, none)
      else if pathBound ≤ (spelledParent p).bytes.length then (w, some .nameTooLong)
      else w.makeDirectories d
    | none => (w, none)
  match fault with
  | some fault => (w, some fault)
  | none =>
    match w.write p content with
    | .ok w => (w, none)
    | .error fault => (w, some fault)

/-- Takes away the entry that a path names, a link in the last place itself. -/
def removeAt (w : Workspace) (p : Path) : Except IoFault Workspace := do
  let segments := trimmedSegments p
  let parent ← w.directoryOf (p.startFrom w.directory) segments.dropLast
  match segments.getLast? with
  | none => .error .isADirectory
  | some s => .ok { w with tree := w.tree.remove (parent ++ [s]) }

end Workspace

end IncludeAtlas
