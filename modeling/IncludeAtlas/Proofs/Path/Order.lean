import IncludeAtlas.Path.Order

/-!
# What the order of paths means

Paths are sorted by their keys.  Said of their components, this is the order in which the first
component that differs decides, and a path comes before everything below it.

## Main Definitions

* `Component.Before`: the order of components
* `Path.Before`: the order of paths

## Main Results

* `Path.key_lt_iff`: paths are sorted as their components say
* `Path.same_iff_not_before`: paths of which neither is before the other are one path

## Design notes

`Path.Before` speaks of components and never of spellings.  So a name with a hyphen comes after
the same name with something below it, although the byte of the hyphen is before that of the slash.
-/

namespace IncludeAtlas

/-- The root is before a leading dot, that before `..`, and that before names, which are compared
byte by byte. -/
inductive Component.Before : Component → Component → Prop
  | root_current : Before .root .current
  | root_parent : Before .root .parent
  | root_name {n : Bytes} : Before .root (.name n)
  | current_parent : Before .current .parent
  | current_name {n : Bytes} : Before .current (.name n)
  | parent_name {n : Bytes} : Before .parent (.name n)
  | name {m n : Bytes} : m < n → Before (.name m) (.name n)

/-- The first component that differs decides, and a path is before everything below it. -/
def Path.Before (p q : Path) : Prop :=
  List.Lex Component.Before p.components q.components

theorem Component.key_lt_iff {c d : Component} : c.key < d.key ↔ c.Before d := by
  simp only [key]
  constructor
  · intro h
    cases c <;> cases d <;> simp [List.cons_lt_cons_iff] at h
    all_goals constructor
    exact h
  · intro h
    cases h <;> simp [List.cons_lt_cons_iff]
    assumption

namespace Path

variable {p q : Path}

/-- **Paths are sorted as their components say.** -/
theorem key_lt_iff : p.key < q.key ↔ p.Before q := by
  unfold key Before
  generalize p.components = cs, q.components = ds
  induction cs generalizing ds with
  | nil => cases ds <;> simp
  | cons c cs ih =>
      cases ds with
      | nil => simp
      | cons d ds =>
          rw [List.map_cons, List.map_cons, List.cons_lt_cons_iff, List.cons_lex_cons_iff, ih,
            Component.key_lt_iff, (Function.Injective.eq_iff fun _ _ => Component.key_injective)]

instance : DecidableRel Before := fun _ _ => decidable_of_iff _ key_lt_iff

/-- A hyphen is before a slash as a byte, but not in a path. -/
example : (ofString "a/b").Before (ofString "a-b") ∧
    ¬ (ofString "a/b").bytes < (ofString "a-b").bytes := by
  decide +kernel

instance : Std.Asymm Before where
  asymm p q h := by
    rw [← key_lt_iff] at h ⊢
    exact List.lt_asymm h

/-- **Paths of which neither is before the other are one path.** -/
theorem same_iff_not_before : p.Same q ↔ ¬ p.Before q ∧ ¬ q.Before p := by
  rw [← key_lt_iff, ← key_lt_iff, ← key_eq_iff]
  constructor
  · intro eq
    rw [eq]
    exact ⟨List.lt_irrefl _, List.lt_irrefl _⟩
  · rintro ⟨notBefore, notAfter⟩
    exact List.le_antisymm (List.not_lt.1 notAfter) (List.not_lt.1 notBefore)

end Path

end IncludeAtlas
