import IncludeAtlas.FileTree.Resolve

/-!
# The include search

Where an included token is looked for: below each directory of a list, in the order of
the list, until one has a file there.

## Main Definitions

* `Workspace.file?`: the file that a path leads to, as a location
* `Workspace.search?`: the file that a token denotes below the first directory that has
  one
* `Workspace.resolve`: the path of that file, or the token as it is

## Design notes

The result is a location, so one file has one result, whatever tokens, directories and
links lead to it.  A directory under the searched name is no file and does not end the
search.
-/

namespace IncludeAtlas.Workspace

/-- The location of the file that a path leads to, looked up under the path it has from the
root. -/
def file? (w : Workspace) (p : Path) : Option Location :=
  match w.canonicalize p with
  | .ok l =>
    match w.tree.shallow.lookup? l with
    | some (.file _) => some l
    | _ => none
  | .error _ => none

/-- The file that a token denotes below the first directory that has one. -/
def search? (w : Workspace) (directories : List Path) (token : Path) : Option Location :=
  directories.findSome? fun d => w.file? (d.join token)

/-- The path of the file that a token denotes, or the token itself. -/
def resolve (w : Workspace) (directories : List Path) (token : Path) : Path :=
  match w.search? directories token with
  | some l => l.toPath
  | none => token

end IncludeAtlas.Workspace
