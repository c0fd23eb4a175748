import IncludeAtlas.Settings.Basic
import IncludeAtlas.Page.Address

/-!
# Commands

What the program is asked to do, with everything a command line can say about it.

## Main Definitions

* `ScanArguments`: what is said about the scan and the graph
* `ScanArguments.applyTo`: these on top of settings
* `Action`, `Command`: the whole request

## Design notes

Lists on the command line extend those of the settings, single values replace them, and
what is switched on in either place is on.
-/

namespace IncludeAtlas

/-- What a command line says about the scan and the graph. -/
structure ScanArguments where
  roots : List Path
  patterns : List String
  directories : List Path
  relation : Option Relation
  granularity : Option Nat
  fullPath : Bool
  colors : Option String
  variation : Option UInt32
  alphaMin : Option Float
  seed : Option UInt64
  honorIgnoreFiles : Bool

/-- Settings with arguments on top of them. -/
def ScanArguments.applyTo (a : ScanArguments) (s : Settings) : Settings where
  scan := {
    roots := s.scan.roots ++ a.roots
    patterns := s.scan.patterns ++ a.patterns
    directories := s.scan.directories ++ a.directories
    honorIgnoreFiles := s.scan.honorIgnoreFiles || a.honorIgnoreFiles }
  graph := {
    relation := a.relation.getD s.graph.relation
    fullPath := s.graph.fullPath || a.fullPath
    granularity := a.granularity.getD s.graph.granularity
    seed := a.seed.or s.graph.seed
    colors := a.colors.getD s.graph.colors
    variation := a.variation.getD s.graph.variation
    alphaMin := a.alphaMin.getD s.graph.alphaMin }

/-- What the program does. -/
inductive Action where
  /-- Serves the page at an address, after writing the document to a file if asked to. -/
  | serve (arguments : ScanArguments) (address : Address) (write : Option Path)
  /-- Writes the document to a file or prints it. -/
  | document (arguments : ScanArguments) (output : Option Path)
  /-- Prints what was counted. -/
  | index (arguments : ScanArguments)
  /-- Prints the version. -/
  | version

/-- An action, and the file to load settings from. -/
structure Command where
  config : Option Path
  action : Action

end IncludeAtlas
