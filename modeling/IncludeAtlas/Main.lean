import IncludeAtlas.Command.Run
import IncludeAtlas.FileTree.Snapshot

/-!
# The program

The command line around `Workspace.runArguments`.  The file tree is one line of JSON on
standard input, so that a run depends on nothing but its arguments and its input, and
touches no file.

## Main Definitions

* `main`: runs a command line
-/

open IncludeAtlas in
/-- Runs a command line in the file tree that standard input describes. -/
def main (arguments : List String) : IO UInt32 := do
  let line ← (← IO.getStdin).getLine
  let snapshot := (Json.parse? line.toList).getD .null
  let workspace := Workspace.ofSnapshot (Path.ofString "/") snapshot
  let (_, outcome) := workspace.runArguments arguments
  (← IO.getStdout).putStr outcome.printed
  (← IO.getStderr).putStr outcome.complaint
  return outcome.status.toUInt32
