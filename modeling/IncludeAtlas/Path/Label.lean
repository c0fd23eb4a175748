import IncludeAtlas.Path.Basic

/-!
# Labels and groups

What a graph shows of a path: a label, and the group it is filed under, which is
named by the directories right above it.

## Main Definitions

* `Path.label`: the whole path or its last component
* `Path.directories`: the components above the last one, without the root
* `Path.group`: the last few directories

## Design notes

Components are turned into text one by one, so an ill-formed byte in one directory
does not run into the next.
-/

namespace IncludeAtlas.Path

/-- The label of a path: its last component, or all of it if that is asked for or if
the last component is no name. -/
def label (p : Path) (full : Bool) : String :=
  if full then p.display
  else
    match p.fileName? with
    | some n => Utf8.lossy n
    | none => p.display

/-- The directories that a path names above its last component. -/
def directories (p : Path) : List Component :=
  match p.parent? with
  | some parent => parent.components.filter (· ≠ .root)
  | none => []

/-- The last `granularity` directories, as text. -/
def group (p : Path) (granularity : Nat) : String :=
  let names := p.directories.map fun c => Utf8.lossy c.bytes
  "/".intercalate (names.drop (names.length - granularity))

/-- The group is a matter of what a path means, not of its spelling. -/
theorem group_congr {p q : Path} (h : p.Same q) (granularity : Nat) :
    p.group granularity = q.group granularity := by
  rw [group, group, directories, directories, parent?, parent?, h]

end IncludeAtlas.Path
