import IncludeAtlas.Graph.Basic
import IncludeAtlas.Scan.Options

/-!
# Settings

Everything a run is told: what to scan, and how the graph comes out.

## Main Definitions

* `GraphSettings`, `Settings`: the settings of the graph, and all of them
* `Settings.default`: what holds where nothing else is said
* `Settings.graphOptions`: the options of the graph, if its colors can be used
* `Settings.scanOptions`: the options of the scan in a working directory

## Design notes

Settings are kept as they were given.  Patterns and colors are only read when the options
of a scan or a graph are made from them, and that is where they fail.
-/

namespace IncludeAtlas

/-- How a graph comes out. -/
structure GraphSettings where
  relation : Relation
  /-- Whether nodes are labelled with their whole path. -/
  fullPath : Bool
  /-- How many directories name a group. -/
  granularity : Nat
  seed : Option UInt64
  /-- The base color as a specification. -/
  colors : String
  variation : UInt32
  alphaMin : Float

/-- Everything a run is told. -/
structure Settings where
  scan : ScanOptions
  graph : GraphSettings

/-- A scan of no directory, for C and C++ files. -/
def ScanOptions.default : ScanOptions where
  roots := []
  patterns := defaultPatterns
  directories := []
  honorIgnoreFiles := false

/-- A graph with edges towards the including files, grouped by two directories. -/
def GraphSettings.default : GraphSettings where
  relation := Relation.default
  fullPath := false
  granularity := 2
  seed := none
  colors := Palette.default.base.spec
  variation := Palette.default.variation
  alphaMin := Palette.default.alphaMin

namespace Settings

/-- What holds where nothing else is said. -/
def default : Settings :=
  ⟨ScanOptions.default, GraphSettings.default⟩

/-- The options of the graph, if its colors can be used. -/
def graphOptions (s : Settings) : Except PaletteError GraphOptions := do
  let base ← Palette.parseBase s.graph.colors
  let palette ← Palette.make base s.graph.variation s.graph.alphaMin
  return {
    relation := s.graph.relation
    fullPath := s.graph.fullPath
    granularity := s.graph.granularity
    palette
    seed := s.graph.seed }

/-- The options of the scan: the working directory comes before the directories of the
settings. -/
def scanOptions (s : Settings) (workingDirectory : Path) : ScanOptions :=
  { s.scan with directories := workingDirectory :: s.scan.directories }

end Settings

end IncludeAtlas
