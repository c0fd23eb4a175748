import IncludeAtlas.Glob.Parser
import IncludeAtlas.FileTree.Fault
import IncludeAtlas.Palette
import IncludeAtlas.Path.Basic

/-!
# What to scan

The directories to scan, the names that count as source files, and the directories
that included tokens are looked for in.

## Main Definitions

* `ScanOptions`: what a scan is told
* `ScanError`: why a scan, or what prepares it, fails
* `ScanError.message`: the wording
-/

namespace IncludeAtlas

/-- The patterns of C and C++ sources and headers. -/
def defaultPatterns : List String := ["*.[ch]pp", "*.[ch]"]

/-- What a scan is told. -/
structure ScanOptions where
  roots : List Path
  /-- Patterns for file names. -/
  patterns : List String
  /-- Directories to look for included files in, after the file's own directory and its
  root. -/
  directories : List Path
  honorIgnoreFiles : Bool
  deriving DecidableEq, Repr

/-- Why a scan, or what prepares it, fails. -/
inductive ScanError where
  | unreadable (path : Path) (fault : IoFault)
  | notText (path : Path)
  | badPattern (error : GlobError)
  | invalidRoot (path : Path)
  | noRoots
  | badSettings
  | badColors (error : PaletteError)

/-- The wording of an error.  That of unreadable settings is left open. -/
def ScanError.message : ScanError → String
  | .unreadable p fault => "cannot read " ++ p.display ++ ": " ++ fault.message
  | .notText p => p.display ++ " is not a text file"
  | .badPattern e => "invalid glob pattern: " ++ e.message
  | .invalidRoot p => "scan root " ++ p.display ++ " is not a directory"
  | .noRoots => "no directories to scan"
  | .badSettings => "config parse error"
  | .badColors e => e.message

/-- Reads patterns; the first that is none is reported. -/
def readPatterns (patterns : List String) : Except ScanError (List (List Glob.Token)) :=
  patterns.mapM fun s => (Glob.parse false s).mapError ScanError.badPattern

end IncludeAtlas
