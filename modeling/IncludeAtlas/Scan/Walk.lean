import IncludeAtlas.Scan.File
import IncludeAtlas.Graph.Basic

/-!
# Walks

Scanning all roots and entering what is found into a graph.

## Main Definitions

* `Summary`: what a walk counted
* `Scanner`: scan options whose patterns have been read
* `Scanner.walk`: a walk

## Design notes

All roots are looked up before anything is scanned, and everything is scanned before
anything enters the graph.  A file that cannot be read is counted and left out.
-/

namespace IncludeAtlas

/-- What a walk counted. -/
structure Summary where
  scanned : Nat
  failed : Nat
  directoriesSkipped : Nat
  /-- The includes of all scanned files together. -/
  includes : Nat
  /-- The unresolved tokens of all scanned files together. -/
  unresolved : Nat
  deriving DecidableEq, Repr

/-- Scan options whose patterns have been read. -/
structure Scanner where
  options : ScanOptions
  patterns : List (List Glob.Token)

namespace Scanner

/-- Reads the patterns of some scan options. -/
def make (options : ScanOptions) : Except ScanError Scanner :=
  (readPatterns options.patterns).map (Scanner.mk options)

/-- The location of a root, which has to be a directory under the path it has from the
root of the tree. -/
def rootOf (w : Workspace) (p : Path) : Except ScanError Location :=
  match w.canonicalize p with
  | .ok l =>
    if w.tree.shallow.lookup? l = some .directory then .ok l else .error (.invalidRoot p)
  | .error _ => .error (.invalidRoot p)

/-- The locations of all roots. -/
def rootsOf (w : Workspace) (roots : List Path) : Except ScanError (List Location) :=
  if roots.isEmpty then .error .noRoots else roots.mapM (rootOf w)

/-- What is seen below all roots. -/
def sightings (s : Scanner) (w : Workspace) (roots : List Location) : List Sighting :=
  roots.flatMap (w.sightings s.options.honorIgnoreFiles s.patterns)

/-- The candidate of a sighting. -/
def candidate? : Sighting → Option Candidate
  | .candidate c => some c
  | .directory => none

/-- The candidates below all roots, each with the outcome of reading it. -/
def outcomes (s : Scanner) (w : Workspace) (seen : List Sighting) :
    List (Except ScanError ScannedFile) :=
  (seen.filterMap candidate?).map (w.scanFile s.options)

/-- The files among some outcomes. -/
def files (outcomes : List (Except ScanError ScannedFile)) : List ScannedFile :=
  outcomes.filterMap Except.toOption

/-- What some sightings and the outcomes of reading them come to. -/
def summarize (seen : List Sighting) (outcomes : List (Except ScanError ScannedFile)) : Summary :=
  let found := files outcomes
  { scanned := found.length
    failed := outcomes.length - found.length
    directoriesSkipped := (seen.filter (· = .directory)).length
    includes := (found.flatMap ScannedFile.includes).length
    unresolved := (found.flatMap ScannedFile.unresolved).length }

/-- Enters scanned files into a graph. -/
def enter (g : IncludeGraph) (found : List ScannedFile) : IncludeGraph :=
  found.foldl (fun g f => g.register f.path f.includes) g

/-- Scans all roots and enters the files into a graph.  The result is the graph as the walk
leaves it, and what it counted unless it failed. -/
def walk (s : Scanner) (w : Workspace) (g : IncludeGraph) :
    IncludeGraph × Except ScanError Summary :=
  match rootsOf w s.options.roots with
  | .error e => (g, .error e)
  | .ok roots =>
    let seen := s.sightings w roots
    let outcomes := s.outcomes w seen
    (enter g (files outcomes), .ok (summarize seen outcomes))

end Scanner

end IncludeAtlas
