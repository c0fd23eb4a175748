import IncludeAtlas.Command.Read
import IncludeAtlas.Command.Report
import IncludeAtlas.Scan.Walk
import IncludeAtlas.Settings.Check
import IncludeAtlas.Settings.Text
import IncludeAtlas.Version

/-!
# Running commands

What a command does in a workspace: it loads settings, scans, and writes, prints or serves
what came of it.

## Main Definitions

* `Workspace.build`: the graph that settings ask for
* `Ending`: what a command that succeeds leaves to do
* `Workspace.perform`: the effect of a command
* `Outcome`, `Workspace.runArguments`: the run of a whole command line

## Design notes

Settings are loaded before anything else, also by a command that has no use for them.
Nothing is written before the graph is complete.
-/

namespace IncludeAtlas

/-- What was counted, one count a line. -/
def Summary.report (s : Summary) : String :=
  "files scanned:       " ++ Natural.text s.scanned ++ "\n"
    ++ "files failed:        " ++ Natural.text s.failed ++ "\n"
    ++ "directories skipped: " ++ Natural.text s.directoriesSkipped ++ "\n"
    ++ "includes:            " ++ Natural.text s.includes ++ "\n"
    ++ "unresolved:          " ++ Natural.text s.unresolved ++ "\n"

/-- What a command that succeeds leaves to do. -/
inductive Ending where
  /-- Printing a text. -/
  | print (text : String)
  /-- Serving a document. -/
  | serve (address : Address) (document : GraphDocument)

namespace Workspace

/-- The settings that a command starts from. -/
def baseSettings (w : Workspace) : Option Path → Except RunError Settings
  | some p => (w.loadSettings p).mapError (RunError.settings p)
  | none => .ok Settings.default

/-- The graph that settings ask for, and what was counted on the way. -/
def build (w : Workspace) (s : Settings) : Except RunError (Summary × IncludeGraph) := do
  (w.check s).mapError RunError.invalid
  let scanner ← (Scanner.make (s.scanOptions w.directory.toPath)).mapError RunError.scan
  let options ← s.graphOptions.mapError fun e => RunError.scan (.badColors e)
  match scanner.walk w (IncludeGraph.empty options) with
  | (g, .ok summary) => return (summary, g)
  | (_, .error e) => throw (.scan e)

/-- Writes a document to a file if there is one to write to. -/
def writeTo (w : Workspace) (d : GraphDocument) : Option Path → Workspace × Except RunError Unit
  | none => (w, .ok ())
  | some p =>
    match w.writeDocument p d with
    | (w, none) => (w, .ok ())
    | (w, some e) => (w, .error (.write e))

/-- The effect of an action that starts from settings. -/
def act (w : Workspace) (s : Settings) : Action → Workspace × Except RunError Ending
  | .version => (w, .ok (.print ("incgraph v" ++ versionNumber ++ "\n")))
  | .index arguments =>
    (w, (w.build (arguments.applyTo s)).map fun (summary, g) =>
      .print (g.summary ++ "\n" ++ summary.report))
  | .document arguments output =>
    match w.build (arguments.applyTo s) with
    | .error e => (w, .error e)
    | .ok (_, g) =>
      match output with
      | none => (w, .ok (.print (g.toDocument.write ++ "\n")))
      | some p => (w.writeTo g.toDocument p).map id fun r => r.map fun _ => .print ""
  | .serve arguments address write =>
    match w.build (arguments.applyTo s) with
    | .error e => (w, .error e)
    | .ok (_, g) =>
      (w.writeTo g.toDocument write).map id fun r => do
        r
        match address.fault? with
        | some fault => .error (.bind address fault)
        | none => .ok (.serve address g.toDocument)

/-- The effect of a command. -/
def perform (w : Workspace) (c : Command) : Workspace × Except RunError Ending :=
  match w.baseSettings c.config with
  | .ok s => w.act s c.action
  | .error e => (w, .error e)

end Workspace

/-- How the run of a command line ends. -/
inductive Outcome where
  | ended (ending : Ending)
  /-- The command failed, with a report. -/
  | failed (report : String)
  /-- There is no such command. -/
  | misused

namespace Outcome

/-- The exit status. -/
def status : Outcome → Nat
  | .ended _ => 0
  | .failed _ => 1
  | .misused => 2

/-- What is printed for use by others. -/
def printed : Outcome → String
  | .ended (.print text) => text
  | _ => ""

/-- What is printed about failures. -/
def complaint : Outcome → String
  | .failed report => report
  | _ => ""

end Outcome

/-- The run of a whole command line. -/
def Workspace.runArguments (w : Workspace) (arguments : List String) : Workspace × Outcome :=
  match Command.parse? arguments with
  | none => (w, .misused)
  | some c =>
    match w.perform c with
    | (w, .ok ending) => (w, .ended ending)
    | (w, .error e) => (w, .failed (report e.causes))

end IncludeAtlas
