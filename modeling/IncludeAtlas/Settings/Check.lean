import IncludeAtlas.Settings.Basic
import IncludeAtlas.FileTree.Resolve

/-!
# Checking settings

What would make a run fail midway is found out before it starts.

## Main Definitions

* `Workspace.checkRoots`: whether there are directories to scan
* `Workspace.check`: whether a run with some settings can start
-/

namespace IncludeAtlas.Workspace

/-- Fails at the first of some paths that is no directory. -/
def checkDirectories (w : Workspace) (ps : List Path) : Except ScanError Unit :=
  match ps.find? fun p => ¬ w.isDirectory p with
  | some p => .error (.invalidRoot p)
  | none => .ok ()

/-- Whether there are directories to scan. -/
def checkRoots (w : Workspace) (roots : List Path) : Except ScanError Unit :=
  if roots.isEmpty then .error .noRoots else w.checkDirectories roots

/-- Whether a run can start: roots, patterns and colors are looked at in this order. -/
def check (w : Workspace) (s : Settings) : Except ScanError Unit := do
  w.checkRoots s.scan.roots
  let _ ← readPatterns s.scan.patterns
  let _ ← s.graphOptions.mapError ScanError.badColors

end IncludeAtlas.Workspace
