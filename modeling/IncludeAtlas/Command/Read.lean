import IncludeAtlas.Command.Basic
import IncludeAtlas.Command.Words
import IncludeAtlas.Decimal.Read

/-!
# Commands from the command line

Reading the values of a command line that is cut into words.

## Main Definitions

* `Argument.path?`, `Argument.natural?`, `Argument.ranged?`: single values
* `Words.single?`: the value of a switch that may be set once
* `ScanArguments.ofWords?`, `Action.ofWords?`: the parts of a command
* `Command.parse?`: the command of a command line

## Design notes

Whatever is wrong with a command line, it is refused as a whole.  The settings file may be
named before and after the verb; the later place counts.
-/

namespace IncludeAtlas

namespace Argument

/-- A path, which is not empty. -/
def path? (s : String) : Option Path :=
  if s = "" then none else some (Path.ofString s)

/-- A natural number of at most `bound`. -/
def natural? (bound : Nat) (s : String) : Option Nat :=
  (Natural.read bound s.toList).toOption

/-- A number between zero and `bound`, read as an integer: zero may have a minus. -/
def ranged? (bound : Nat) (s : String) : Option Nat :=
  match s.toList with
  | '-' :: ds => if ds ≠ [] ∧ ds.all (· = '0') then some 0 else none
  | ds => (Natural.read bound ds).toOption

/-- A relation. -/
def relation? (s : String) : Option Relation :=
  (Relation.parse s).toOption

end Argument

namespace Words

/-- The value that a word gives to a switch. -/
def valueFor? (s : Switch) : Word → Option String
  | .valued t v => if s = t then some v else none
  | _ => none

/-- The text of an operand. -/
def operand? : Word → Option String
  | .operand a => some a
  | _ => none

/-- The switch that a word sets. -/
def switch? : Word → Option Switch
  | .switch s | .valued s _ => some s
  | .operand _ => none

/-- Whether a switch is set. -/
def isSet (s : Switch) (ws : List Word) : Bool :=
  (ws.filterMap switch?).contains s

/-- Whether no switch is set more often than it may be. -/
def wellCounted (ws : List Word) : Bool :=
  Switch.all.all fun s => s.repeats || (ws.filterMap switch?).count s ≤ 1

/-- The values of a switch, all of which have to be readable. -/
def values? {α : Type} (s : Switch) (read? : String → Option α) (ws : List Word) :
    Option (List α) :=
  (ws.filterMap (valueFor? s)).mapM read?

/-- The value of a switch that may be set once, which has to be readable. -/
def single? {α : Type} (s : Switch) (read? : String → Option α) (ws : List Word) :
    Option (Option α) :=
  (values? s read? ws).map List.head?

/-- The operands, all of which have to be readable. -/
def operands? {α : Type} (read? : String → Option α) (ws : List Word) : Option (List α) :=
  (ws.filterMap operand?).mapM read?

end Words

/-- What some words say about a scan. -/
def ScanArguments.ofWords? (ws : List Word) : Option ScanArguments := do
  return {
    roots := ← Words.operands? Argument.path? ws
    patterns := ← Words.values? .pattern some ws
    directories := ← Words.values? .directory Argument.path? ws
    relation := ← Words.single? .relation Argument.relation? ws
    granularity := ← Words.single? .granularity (Argument.natural? (UInt64.size - 1)) ws
    fullPath := Words.isSet .fullPath ws
    colors := ← Words.single? .colors some ws
    variation := (← Words.single? .variation (Argument.ranged? (UInt32.size - 1)) ws).map Nat.toUInt32
    alphaMin := ← Words.single? .alphaMin (fun s => Decimal.read? s.toList) ws
    seed := (← Words.single? .seed (Argument.natural? (UInt64.size - 1)) ws).map Nat.toUInt64
    honorIgnoreFiles := Words.isSet .honorIgnoreFiles ws }

/-- The action of a verb and the words after it. -/
def Action.ofWords? (verb : Verb) (ws : List Word) : Option Action := do
  match verb with
  | .serve =>
    let port ← Words.single? .port (Argument.ranged? (UInt16.size - 1)) ws
    let host ← Words.single? .host some ws
    let address : Address := ⟨host.getD Address.default.host, port.getD Address.default.port⟩
    return .serve (← ScanArguments.ofWords? ws) address (← Words.single? .write Argument.path? ws)
  | .document =>
    return .document (← ScanArguments.ofWords? ws) (← Words.single? .output Argument.path? ws)
  | .index => return .index (← ScanArguments.ofWords? ws)
  | .version => if ws.filterMap Words.operand? = [] then some .version else none

namespace Command

/-- The command of a command line in pieces. -/
def ofLine? (l : CommandLine) : Option Command :=
  if Words.wellCounted l.before && Words.wellCounted l.after then do
    let outer ← Words.single? .config Argument.path? l.before
    let inner ← Words.single? .config Argument.path? l.after
    return ⟨inner.or outer, ← Action.ofWords? l.verb l.after⟩
  else none

/-- The command of a command line. -/
def parse? (arguments : List String) : Option Command :=
  (CommandLine.cut? arguments).bind ofLine?

end Command

end IncludeAtlas
