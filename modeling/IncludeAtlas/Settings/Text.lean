import IncludeAtlas.Settings.Basic
import IncludeAtlas.Toml.Document
import IncludeAtlas.FileTree.Resolve

/-!
# Settings in files

A settings file is a TOML text with the tables `scan` and `graph`.  Every key may be
missing and then means the default, and no others are allowed.

## Main Definitions

* `Toml.fields?`: the values of the named fields of a record
* `Settings.ofToml?`, `Settings.parse`: the settings of a value or a text
* `Workspace.loadSettings`: the settings of a file

## Design notes

A record is a table, or the array of its fields in order.  An array may stop early, which
leaves the rest to the defaults, and what comes after the last field is passed over.
A relation is a text, or a table whose only key is its name and leads to nothing.
-/

namespace IncludeAtlas

namespace Toml

/-- The values of the named fields of a record, with `none` for those that are missing. -/
def fields? (names : List String) : Toml → Option (List (Option Toml))
  | .table entries =>
    if entries.all fun e => e.1 ∈ names then some (names.map fun name => find? name entries)
    else none
  | .array elements => some ((List.range names.length).map fun i => elements[i]?)
  | _ => none

/-- The value of a field, or a default if the field is missing. -/
def readOr {α : Type} (read? : Toml → Option α) (default : α) : Option Toml → Option α
  | some v => read? v
  | none => some default

/-- A text. -/
def text? : Toml → Option String
  | .text s => some s
  | _ => none

/-- A truth value. -/
def boolean? : Toml → Option Bool
  | .boolean b => some b
  | _ => none

/-- A natural number of at most `bound`. -/
def natural? (bound : Nat) : Toml → Option Nat
  | .integer n => if 0 ≤ n ∧ n ≤ bound then some n.toNat else none
  | _ => none

/-- A number, be it an integer or not. -/
def real? : Toml → Option Float
  | .float x => some x
  | .integer n => some (Binary.nearest (n < 0) n.natAbs 1)
  | _ => none

/-- The elements of an array, each read alike. -/
def list? {α : Type} (read? : Toml → Option α) : Toml → Option (List α)
  | .array elements => elements.mapM read?
  | _ => none

/-- A path. -/
def path? (v : Toml) : Option Path :=
  v.text?.map Path.ofString

/-- Whether a value holds nothing. -/
def isEmpty : Toml → Bool
  | .array [] => true
  | .table [] => true
  | _ => false

/-- A relation. -/
def relation? : Toml → Option Relation
  | .text s => (Relation.parse s).toOption
  | .table [(name, v)] => if v.isEmpty then (Relation.parse name).toOption else none
  | _ => none

end Toml

/-- The settings of a scan. -/
def ScanOptions.ofToml? (v : Toml) : Option ScanOptions := do
  match ← v.fields? ["roots", "patterns", "prefixes", "respect_ignore_files"] with
  | [roots, patterns, prefixes, ignore] =>
    return {
      roots := ← roots |> Toml.readOr (Toml.list? Toml.path?) default.roots
      patterns := ← patterns |> Toml.readOr (Toml.list? Toml.text?) default.patterns
      directories := ← prefixes |> Toml.readOr (Toml.list? Toml.path?) default.directories
      honorIgnoreFiles := ← ignore |> Toml.readOr Toml.boolean? default.honorIgnoreFiles }
  | _ => none

/-- The settings of a graph. -/
def GraphSettings.ofToml? (v : Toml) : Option GraphSettings := do
  match ← v.fields? ["relation", "full_path", "group_granularity", "seed", "colors",
    "color_variation", "color_alpha_min"] with
  | [relation, fullPath, granularity, seed, colors, variation, alphaMin] =>
    return {
      relation := ← relation |> Toml.readOr Toml.relation? default.relation
      fullPath := ← fullPath |> Toml.readOr Toml.boolean? default.fullPath
      granularity := ← granularity |> Toml.readOr (Toml.natural? (UInt64.size - 1)) default.granularity
      seed := ← seed |> Toml.readOr (fun v => (v.natural? (UInt64.size - 1)).map fun n => some n.toUInt64)
        default.seed
      colors := ← colors |> Toml.readOr Toml.text? default.colors
      variation := ← variation |> Toml.readOr (fun v => (v.natural? (UInt32.size - 1)).map Nat.toUInt32)
        default.variation
      alphaMin := ← alphaMin |> Toml.readOr Toml.real? default.alphaMin }
  | _ => none

namespace Settings

/-- The settings of a value. -/
def ofToml? (v : Toml) : Option Settings := do
  match ← v.fields? ["scan", "graph"] with
  | [scan, graph] =>
    return ⟨← scan |> Toml.readOr ScanOptions.ofToml? default.scan,
      ← graph |> Toml.readOr GraphSettings.ofToml? default.graph⟩
  | _ => none

/-- The settings of a text. -/
def parse (s : String) : Except ScanError Settings :=
  match (Toml.parse? s.toList).bind ofToml? with
  | some settings => .ok settings
  | none => .error .badSettings

end Settings

/-- The settings of a file. -/
def Workspace.loadSettings (w : Workspace) (p : Path) : Except ScanError Settings :=
  match w.readText p with
  | .ok s => Settings.parse s
  | .error fault => .error (.unreadable p fault)

end IncludeAtlas
