/-!
# Switches of the command line

What may be set on a command line, how it is spelled and where it is understood.

## Main Definitions

* `Verb`: what the program is asked to do
* `Switch`: something that may be set
* `Switch.ofLong?`, `Switch.ofLetter?`: the switch of a spelling
* `Switch.takesValue`, `Switch.repeats`, `Switch.fits`: its use
-/

namespace IncludeAtlas

/-- What the program is asked to do. -/
inductive Verb where
  /-- Show the graph on a page. -/
  | serve
  /-- Write the document of the graph. -/
  | document
  /-- Count what was found. -/
  | index
  /-- Tell the version. -/
  | version
  deriving DecidableEq, Repr

/-- The verb of a word. -/
def Verb.ofString? (s : String) : Option Verb :=
  if s = "serve" then some .serve
  else if s = "export" then some .document
  else if s = "index" then some .index
  else if s = "version" then some .version
  else none

/-- Something that may be set on the command line. -/
inductive Switch where
  | verbose
  | config
  | pattern
  | directory
  | relation
  | granularity
  | fullPath
  | colors
  | variation
  | alphaMin
  | seed
  | honorIgnoreFiles
  | output
  | port
  | host
  | openPage
  | write
  deriving DecidableEq, Repr

namespace Switch

/-- All switches. -/
def all : List Switch :=
  [verbose, config, pattern, directory, relation, granularity, fullPath, colors, variation,
    alphaMin, seed, honorIgnoreFiles, output, port, host, openPage, write]

/-- The spelling after two hyphens. -/
def long : Switch → String
  | verbose => "verbose"
  | config => "config"
  | pattern => "pattern"
  | directory => "prefix"
  | relation => "relation"
  | granularity => "group-granularity"
  | fullPath => "full-path"
  | colors => "colors"
  | variation => "color-variation"
  | alphaMin => "color-alpha-min"
  | seed => "seed"
  | honorIgnoreFiles => "respect-ignore"
  | output => "output"
  | port => "port"
  | host => "host"
  | openPage => "open"
  | write => "write"

/-- The letters after one hyphen. -/
def letters : Switch → List Char
  | verbose => ['v']
  | pattern => ['p']
  | directory => ['I', 'i']
  | openPage => ['o']
  | _ => []

/-- Whether a value follows. -/
def takesValue : Switch → Bool
  | verbose | fullPath | honorIgnoreFiles | openPage => false
  | _ => true

/-- Whether the switch may be set more than once. -/
def repeats : Switch → Bool
  | pattern | directory => true
  | _ => false

/-- Whether the switch concerns a scan. -/
def concernsScan : Switch → Bool
  | pattern | directory | relation | granularity | fullPath | colors | variation | alphaMin
  | seed | honorIgnoreFiles => true
  | _ => false

/-- Whether the switch is understood after a verb, or before any. -/
def fits (verb : Option Verb) (s : Switch) : Bool :=
  s == verbose || s == config ||
    match verb with
    | none | some .version => false
    | some .index => s.concernsScan
    | some .document => s.concernsScan || s == output
    | some .serve => s.concernsScan || s == port || s == host || s == openPage || s == write

/-- The switch of a spelling after two hyphens. -/
def ofLong? (verb : Option Verb) (name : List Char) : Option Switch :=
  all.find? fun s => s.long.toList = name && s.fits verb

/-- The switch of a letter after one hyphen. -/
def ofLetter? (verb : Option Verb) (c : Char) : Option Switch :=
  all.find? fun s => c ∈ s.letters && s.fits verb

end Switch

end IncludeAtlas
