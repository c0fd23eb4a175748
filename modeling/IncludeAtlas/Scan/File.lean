import IncludeAtlas.Scan.Candidate
import IncludeAtlas.Search
import IncludeAtlas.Directive
import IncludeAtlas.Path.Order

/-!
# Scanned files

Reading a source file and finding what it includes.

## Main Definitions

* `Workspace.tokensOf`: the tokens that a file includes
* `ScannedFile`, `Workspace.scanFile`: a candidate with its includes

## Design notes

Tokens are resolved in ascending order.  The includes form a set of paths: tokens that
lead to one file count once, and so do unresolved tokens that spell one path.  The list of
unresolved tokens is taken before they fall together.
-/

namespace IncludeAtlas

/-- A source file that was read. -/
structure ScannedFile where
  path : Path
  includes : List Path
  /-- The tokens that no file was found for, as often as they were. -/
  unresolved : List Path
  deriving DecidableEq, Repr

namespace Workspace

/-- The tokens that the file under a path includes. -/
def tokensOf (w : Workspace) (p : Path) : Except ScanError (List String) :=
  match w.readText p with
  | .ok source => .ok (Directive.tokens source)
  | .error .notText => .error (.notText p)
  | .error fault => .error (.unreadable p fault)

/-- Where the includes of a candidate are looked for: in its directory, its root, the
given directories, and where the path leads by itself. -/
def searchDirectories (options : ScanOptions) (c : Candidate) : List Path :=
  Location.toPath c.location.dropLast :: c.root.toPath :: options.directories ++ [⟨[]⟩]

/-- Reads a candidate and resolves its includes. -/
def scanFile (w : Workspace) (options : ScanOptions) (c : Candidate) :
    Except ScanError ScannedFile :=
  match w.tree.canonical linkBound [] c.location with
  | .error fault => .error (.unreadable c.location.toPath fault)
  | .ok l => do
    let tokens := (← w.tokensOf l.toPath).map Path.ofString
    let directories := searchDirectories options c
    return {
      path := l.toPath
      includes := PathSet.ofList (tokens.map (w.resolve directories))
      unresolved := tokens.filter fun t => w.search? directories t = none }

end Workspace

end IncludeAtlas
