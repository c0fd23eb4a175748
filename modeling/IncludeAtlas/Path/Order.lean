import IncludeAtlas.Path.Basic
import IncludeAtlas.Ordered

/-!
# The order of paths

Paths are ordered by their components: the root before a leading dot before `..`
before names, names by their bytes, and a path before everything below it.

## Main Definitions

* `Path.key`: what paths are compared by
* `PathSet.ofList`: a set of paths in ascending order, no two of them the same path

## Design notes

A key is a list of byte strings, so that the order of lists does the comparing; its
lemmas are those of lists.  `Path.key_eq_iff` says that two paths have one key exactly
if they are the same path.
-/

namespace IncludeAtlas

/-- The rank of a component's kind, followed by its name if it has one. -/
def Component.key : Component → Bytes
  | .root => [0]
  | .current => [1]
  | .parent => [2]
  | .name n => 3 :: n

theorem Component.key_injective {c d : Component} (h : c.key = d.key) : c = d := by
  cases c <;> cases d <;> simp_all [Component.key]

/-- What a path is compared by. -/
def Path.key (p : Path) : List Bytes :=
  p.components.map Component.key

theorem Path.key_eq_iff {p q : Path} : p.key = q.key ↔ p.Same q := by
  constructor
  · intro h
    exact List.map_inj_right (fun _ _ => Component.key_injective) |>.1 h
  · intro h
    simp only [Path.key]
    rw [h]

namespace PathSet

/-- A set of paths in ascending order, each in the spelling that came first. -/
def ofList (ps : List Path) : List Path :=
  Ordered.ofList Path.key ps

end PathSet

end IncludeAtlas
