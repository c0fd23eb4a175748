import IncludeAtlas.Path.Basic

/-!
# The registry of paths

The numbers that paths are known under.  A path is found under every spelling of it.

## Main Definitions

* `Registry`: paths with their numbers
* `Registry.get?`: the number of a path
* `Registry.insert`: gives a path a number

## Design notes

`Registry.get?_insert` is the law the registry is used by.  It speaks of paths and not of
spellings, so nothing else has to know how the entries are kept.
-/

namespace IncludeAtlas

/-- Paths and their numbers, the latest first. -/
structure Registry where
  entries : List (Path × Nat)
  deriving DecidableEq, Repr

namespace Registry

/-- A registry that knows no path. -/
def empty : Registry :=
  ⟨[]⟩

/-- The number of a path, in whatever spelling. -/
def get? (r : Registry) (p : Path) : Option Nat :=
  (r.entries.find? fun e => e.1.Same p).map Prod.snd

/-- Gives a path a number. -/
def insert (r : Registry) (p : Path) (id : Nat) : Registry :=
  ⟨(p, id) :: r.entries⟩

@[simp] theorem get?_empty (p : Path) : empty.get? p = none := rfl

@[simp] theorem get?_insert (r : Registry) (p q : Path) (id : Nat) :
    (r.insert p id).get? q = if p.Same q then some id else r.get? q := by
  by_cases h : p.Same q <;> simp [get?, insert, h]

/-- One path has one number. -/
theorem get?_congr (r : Registry) {p q : Path} (h : p.Same q) : r.get? p = r.get? q := by
  have tests : (fun e : Path × Nat => decide (e.1.Same p)) = fun e => decide (e.1.Same q) := by
    funext e
    exact decide_eq_decide.2 h.congr_right
  rw [get?, get?, tests]

end Registry

end IncludeAtlas
