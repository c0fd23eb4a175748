import IncludeAtlas.Scan.Options
import IncludeAtlas.Ignore.Filter
import IncludeAtlas.Glob.Match

/-!
# Candidates

The entries of a tree that a scan looks at: everything below a root whose name matches a
pattern.  What turns out to be a directory is counted and passed by.

## Main Definitions

* `Candidate`: an entry to be scanned and the root it was found under
* `Sighting`: what a matching entry is
* `Workspace.sightings`: the matching entries below a root, in the order of the tree
-/

namespace IncludeAtlas

/-- An entry to be scanned. -/
structure Candidate where
  location : Location
  root : Location
  deriving DecidableEq, Repr

/-- What a matching entry is. -/
inductive Sighting where
  | candidate (c : Candidate)
  | directory
  deriving DecidableEq, Repr

namespace Workspace

/-- The entries below a root that a scan considers.  Those in a directory whose path is too
long to be opened are not seen. -/
def considered (w : Workspace) (honorIgnoreFiles : Bool) (root : Location) :
    List (Location × Entry) :=
  if honorIgnoreFiles then w.filtered root else w.tree.listed.below root

/-- Whether an entry, looked at under its own path, is a directory or a link to one. -/
def leadsToDirectory (w : Workspace) (l : Location) : Bool :=
  if l.Short then
    match w.tree.resolve linkBound [] l with
    | .ok l => w.tree.lookup? l == some .directory
    | .error _ => false
  else false

/-- Whether the name of an entry matches a pattern. -/
def nameMatches (pattern : List Glob.Token) (l : Location) : Bool :=
  match l.getLast? with
  | some n => Glob.accepts false pattern n
  | none => false

/-- What a matching entry is. -/
def sight (w : Workspace) (root l : Location) : Sighting :=
  if w.leadsToDirectory l then .directory else .candidate ⟨l, root⟩

/-- The matching entries below a root, pattern by pattern. -/
def sightings (w : Workspace) (honorIgnoreFiles : Bool) (patterns : List (List Glob.Token))
    (root : Location) : List Sighting :=
  let entries := (w.considered honorIgnoreFiles root).map Prod.fst
  patterns.flatMap fun pattern => (entries.filter (nameMatches pattern)).map (w.sight root)

end Workspace

end IncludeAtlas
