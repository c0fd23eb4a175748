import IncludeAtlas.Text.Cut
import IncludeAtlas.Text.Utf8

/-!
# Paths

A path is the byte string it is spelled as.  What it means is its components: the
root, a leading `.`, every `..`, and names; repeated and trailing slashes and all
other dots have no meaning.  Two spellings of the same components are the same path
wherever paths are compared.

## Main Definitions

* `Path`: a spelling
* `Component`, `Path.components`: its meaning
* `Path.Same`: equality of meaning
* `Path.fileName?`, `Path.parent?`: the last component, and the path without it
* `Path.join`: a path below another one
* `Name`, `Location`: a path in normal form from the root, as the list of its names

## Design notes

`Path.segments` cuts a spelling at its slashes and keeps empty segments and dots,
since a file system gives them a meaning of their own: what stands before a slash
has to be a directory.
-/

namespace IncludeAtlas

/-- The separator of path segments. -/
def slash : UInt8 := 0x2F

/-- The segment that stays where it is. -/
def dot : Bytes := [0x2E]

/-- The segment that goes up. -/
def dotDot : Bytes := [0x2E, 0x2E]

/-- A path as it is spelled. -/
structure Path where
  bytes : Bytes
  deriving DecidableEq, Repr

/-- A part of a path's meaning. -/
inductive Component where
  | root
  | current
  | parent
  | name (bytes : Bytes)
  deriving DecidableEq, Repr

/-- The spelling of a component. -/
def Component.bytes : Component → Bytes
  | .root => [slash]
  | .current => dot
  | .parent => dotDot
  | .name n => n

namespace Path

/-- The path that a text spells. -/
def ofString (s : String) : Path :=
  ⟨Utf8.encode s⟩

/-- The spelling as text. -/
def display (p : Path) : String :=
  Utf8.lossy p.bytes

/-- Whether the path starts from the root. -/
def isAbsolute (p : Path) : Bool :=
  p.bytes.head? == some slash

/-- The pieces of the spelling between its slashes. -/
def segments (p : Path) : List Bytes :=
  Cut.pieces slash p.bytes

/-- The component that a segment stands for, if it has a meaning. -/
def componentOf? (s : Bytes) : Option Component :=
  if s = [] ∨ s = dot then none
  else if s = dotDot then some .parent
  else some (.name s)

/-- The component that the first segment stands for: before a slash, nothing is the
root, and a leading dot is kept. -/
def leading? (p : Path) (first : Bytes) : Option Component :=
  if first = [] then (if p.isAbsolute then some .root else none)
  else if first = dot then some .current
  else componentOf? first

/-- The meaning of a path. -/
def components (p : Path) : List Component :=
  match p.segments with
  | [] => []
  | first :: rest => (p.leading? first).toList ++ rest.filterMap componentOf?

/-- Two spellings of one path. -/
def Same (p q : Path) : Prop :=
  p.components = q.components

instance (p q : Path) : Decidable (Same p q) :=
  inferInstanceAs (Decidable (_ = _))

theorem Same.refl (p : Path) : p.Same p := rfl

theorem Same.symm {p q : Path} (h : p.Same q) : q.Same p :=
  Eq.symm h

theorem Same.trans {p q r : Path} (h : p.Same q) (h' : q.Same r) : p.Same r :=
  Eq.trans h h'

/-- Spellings of one path are compared alike. -/
theorem Same.congr_right {p q r : Path} (h : p.Same q) : r.Same p ↔ r.Same q :=
  ⟨fun same => same.trans h, fun same => same.trans h.symm⟩

/-- The last component, if it is a name. -/
def fileName? (p : Path) : Option Bytes :=
  match p.components.getLast? with
  | some (.name n) => some n
  | _ => none

/-- A path below another one.  An absolute path stays as it is. -/
def join (p q : Path) : Path :=
  if q.isAbsolute then q
  else if p.bytes = [] ∨ p.bytes.getLast? = some slash then ⟨p.bytes ++ q.bytes⟩
  else ⟨p.bytes ++ slash :: q.bytes⟩

/-- The plainest spelling of some components. -/
def ofComponents (cs : List Component) : Path :=
  cs.foldl (fun p c => p.join ⟨c.bytes⟩) ⟨[]⟩

/-- The path without its last component.  The root and the empty path have none. -/
def parent? (p : Path) : Option Path :=
  match p.components.getLast? with
  | none | some .root => none
  | some _ => some (ofComponents p.components.dropLast)

end Path

/-- The name of an entry in a directory. -/
abbrev Name := Bytes

/-- A place in a file tree: the names from the root down. -/
abbrev Location := List Name

/-- The path of a location. -/
def Location.toPath (l : Location) : Path :=
  if l = [] then ⟨[slash]⟩ else ⟨l.flatMap fun n => slash :: n⟩

end IncludeAtlas
