import IncludeAtlas.Proofs.FileTree.Canonical

/-!
# Other spellings of a canonical path

Slashes and dots that mean nothing in a path may mean something to a file system: what stands
before a slash has to be a directory.  This module says where a path leads that has the
components of a file's canonical path and another spelling.

## Main Definitions

* `Path.TrailsOff`: a slash or a dot stands after the last name

## Main Results

* `FileTree.resolve_of_names`: what stands between the names does not matter, and what stands
  after the last one does
* `Workspace.canonicalize_of_same`: every spelling of the path of a file leads to the file,
  unless it trails off

## Design notes

A spelling may be longer than any path that can be opened, by slashes and dots alone.  That is
no fault here, since what is made canonical is followed name by name.  It is the path of the
file that has to be short, so the file is one of the shallow part of the tree.
-/

namespace IncludeAtlas

/-! ## Spellings -/

namespace Path

variable {p : Path} {l : Location}

/-- The spelling goes on after the last name, if only with a slash or a dot. -/
def TrailsOff (p : Path) : Prop :=
  p.segments.getLast? = some [] ∨ p.segments.getLast? = some dot

instance (p : Path) : Decidable p.TrailsOff :=
  inferInstanceAs (Decidable (_ ∨ _))

theorem componentOf?_eq_name_iff {s : Bytes} {n : Name} :
    componentOf? s = some (.name n) ↔ s ≠ [] ∧ s ≠ dot ∧ s ≠ dotDot ∧ s = n := by
  rw [componentOf?]
  split
  · rename_i blank
    rcases blank with rfl | rfl <;> simp
  · split <;> simp_all

theorem componentOf?_eq_none_iff {s : Bytes} : componentOf? s = none ↔ s = [] ∨ s = dot := by
  rw [componentOf?]
  split
  · simp_all
  · split <;> simp_all

theorem componentOf?_ne_root {s : Bytes} : componentOf? s ≠ some .root := by
  rw [componentOf?]
  split
  · simp
  · split <;> simp

theorem components_of_segments {first : Bytes} {rest : List Bytes}
    (h : p.segments = first :: rest) :
    p.components = (p.leading? first).toList ++ rest.filterMap componentOf? := by
  rw [components, h]

/-- A path that means the root first is spelled with a slash first. -/
theorem segments_of_components {names : List Component} (h : p.components = .root :: names) :
    p.isAbsolute = true ∧ ∃ rest, p.segments = [] :: rest ∧ rest.filterMap componentOf? = names := by
  cases cut : p.segments with
  | nil => exact absurd cut (Cut.pieces_ne_nil slash p.bytes)
  | cons first rest =>
      rw [components_of_segments cut, leading?] at h
      by_cases empty : first = []
      · subst empty
        by_cases absolute : p.isAbsolute = true
        · refine ⟨absolute, rest, rfl, ?_⟩
          simpa [absolute] using h
        · -- without a slash in front nothing in the path is the root
          rw [if_pos rfl, if_neg absolute] at h
          have root : Component.root ∈ rest.filterMap componentOf? := by
            rw [Option.toList_none, List.nil_append] at h
            rw [h]
            exact List.mem_cons_self
          obtain ⟨s, -, eq⟩ := List.mem_filterMap.1 root
          exact absurd eq componentOf?_ne_root
      · rw [if_neg empty] at h
        by_cases isDot : first = dot
        · simp [isDot] at h
        · rw [if_neg isDot] at h
          cases component : componentOf? first with
          | none => exact absurd (componentOf?_eq_none_iff.1 component) (by simp [empty, isDot])
          | some c =>
              rw [component] at h
              have root : c = .root := (List.cons.inj h).1
              exact absurd (root ▸ component) componentOf?_ne_root

end Path

/-! ## Where a spelling leads -/

/-- **Names lead to a file, whatever stands between them**, unless something stands after the
last one. -/
theorem FileTree.resolve_of_names {t : FileTree} {links : Nat} {cur : Location}
    {names : List Name} {content : Bytes} {segments : List Bytes} (ne : names ≠ [])
    (file : t.lookup? (cur ++ names) = some (.file content))
    (spelled : segments.filterMap Path.componentOf? = names.map .name) :
    t.resolve links cur segments =
      if segments.getLast? = some [] ∨ segments.getLast? = some dot then .error .notADirectory
      else .ok (cur ++ names) := by
  have settled : t.Settled (cur ++ names) := .inr ⟨content, file⟩
  induction segments generalizing cur names with
  | nil => exact absurd (List.map_eq_nil_iff.1 spelled.symm) ne
  | cons s rest ih =>
      cases component : Path.componentOf? s with
      | none =>
          -- a segment without a meaning stands before a name, so it is not the last one
          have blank := Path.componentOf?_eq_none_iff.1 component
          rw [List.filterMap_cons_none component] at spelled
          have more : rest ≠ [] := by
            rintro rfl
            exact ne (List.map_eq_nil_iff.1 spelled.symm)
          rw [FileTree.resolve, if_pos blank, ih ne file spelled settled,
            List.getLast?_cons_of_ne_nil more]
      | some c =>
          rw [List.filterMap_cons_some component] at spelled
          obtain ⟨n, names, rfl⟩ := List.exists_cons_of_ne_nil ne
          obtain ⟨rfl, tail⟩ := List.cons.inj spelled
          obtain ⟨notEmpty, notDot, -, rfl⟩ := Path.componentOf?_eq_name_iff.1 component
          have step : cur ++ s :: names = (cur ++ [s]) ++ names := by simp
          rw [resolve_cons (settled.isName (by simp))]
          cases names with
          | nil =>
              rw [file]
              by_cases last : rest = []
              · simp [last, notEmpty, notDot]
              · -- all that follows the file are segments without a meaning
                have blank := Path.componentOf?_eq_none_iff.1
                  (List.filterMap_eq_nil_iff.1 tail _ (List.getLast_mem last))
                rw [if_neg last, if_pos]
                rw [List.getLast?_cons_of_ne_nil last, List.getLast?_eq_getLast_of_ne_nil last]
                simpa using blank
          | cons m names =>
              have more : rest ≠ [] := by
                rintro rfl
                cases tail
              rw [settled.lookup?_step (List.cons_ne_nil m names), step]
              rw [step] at file settled
              rw [List.getLast?_cons_of_ne_nil more]
              exact ih (List.cons_ne_nil m names) file tail settled

/-- **Names lead to a directory, whatever stands between them** and after the last one. -/
theorem FileTree.resolve_of_names_append {t : FileTree} {links : Nat} {cur : Location}
    {names : List Name} {segments : List Bytes} (rest : List Bytes)
    (directory : t.lookup? (cur ++ names) = some .directory)
    (spelled : segments.filterMap Path.componentOf? = names.map .name) :
    t.resolve links cur (segments ++ rest) = t.resolve links (cur ++ names) rest := by
  induction segments generalizing cur names with
  | nil =>
      obtain rfl := List.map_eq_nil_iff.1 spelled.symm
      rw [List.nil_append, List.append_nil]
  | cons s segments ih =>
      cases component : Path.componentOf? s with
      | none =>
          have blank := Path.componentOf?_eq_none_iff.1 component
          rw [List.filterMap_cons_none component] at spelled
          rw [List.cons_append, FileTree.resolve, if_pos blank, ih directory spelled]
      | some c =>
          rw [List.filterMap_cons_some component] at spelled
          obtain ⟨n, names, rfl, rfl, tail⟩ := List.map_eq_cons_iff.1 spelled.symm
          obtain ⟨-, -, -, rfl⟩ := Path.componentOf?_eq_name_iff.1 component
          have settled : t.Settled (cur ++ s :: names) := .inl directory
          have step : cur ++ s :: names = (cur ++ [s]) ++ names := by simp
          have above : t.lookup? (cur ++ [s]) = some .directory := by
            by_cases last : names = []
            · rwa [last] at directory
            · exact settled.lookup?_step last
          rw [List.cons_append, resolve_cons (settled.isName (by simp)), above, step]
          exact ih (by rwa [step] at directory) tail.symm

namespace Workspace

variable {w : Workspace} {l : Location} {content : Bytes} {p : Path}

/-- A path with the components of a settled location is spelled with its names. -/
theorem segments_of_same (h : w.tree.shallow.Settled l) (same : p.Same l.toPath) :
    p.isAbsolute = true ∧
      ∃ rest, p.segments = [] :: rest ∧ rest.filterMap Path.componentOf? = l.map .name :=
  Path.segments_of_components
    (Eq.trans same (Location.components_toPath fun _ hn => h.isName hn))

/-- A spelling of the path of a settled location has no fault but its length. -/
theorem spellingFault?_of_same (h : w.tree.shallow.Settled l) (same : p.Same l.toPath) :
    spellingFault? p = none ∨ spellingFault? p = some .nameTooLong := by
  obtain ⟨absolute, rest, cut, names⟩ := segments_of_same h same
  have noNul : 0 ∉ p.bytes := by
    intro nul
    obtain ⟨s, hs, mem⟩ := Cut.exists_mem_pieces_of_mem nul (by decide : (0 : UInt8) ≠ slash)
    rw [show Cut.pieces slash p.bytes = [] :: rest from cut] at hs
    rcases List.mem_cons.1 hs with rfl | hs
    · cases mem
    · cases component : Path.componentOf? s with
      | none =>
          rcases Path.componentOf?_eq_none_iff.1 component with rfl | rfl <;> revert mem <;> decide
      | some c =>
          have hc : c ∈ l.map Component.name := names ▸ List.mem_filterMap.2 ⟨s, hs, component⟩
          obtain ⟨n, hn, rfl⟩ := List.mem_map.1 hc
          obtain ⟨-, -, -, rfl⟩ := Path.componentOf?_eq_name_iff.1 component
          exact (h.isName hn).2.2.2.2.1 mem
  have notEmpty : p.bytes ≠ [] := by
    intro empty
    rw [Path.isAbsolute, empty] at absolute
    cases absolute
  rw [spellingFault?, if_neg noNul, if_neg notEmpty]
  split
  · exact .inr rfl
  · exact .inl rfl

/-- **Every spelling of the path of a file leads to the file**, unless it trails off: then the
file would have to be a directory. -/
theorem canonicalize_of_same (file : w.tree.shallow.lookup? l = some (.file content))
    (same : p.Same l.toPath) :
    w.canonicalize p = if p.TrailsOff then .error .notADirectory else .ok l := by
  have settled : w.tree.shallow.Settled l := .inr ⟨content, file⟩
  obtain ⟨absolute, rest, cut, names⟩ := segments_of_same settled same
  have ne : l ≠ [] := by
    rintro rfl
    rw [w.tree.shallow.lookup?_root] at file
    cases file
  have more : rest ≠ [] := by
    rintro rfl
    exact ne (List.map_eq_nil_iff.1 names.symm)
  have led : w.canonicalize p = w.tree.canonical linkBound [] p.segments := by
    rw [canonicalize, Path.startFrom, if_pos absolute]
    rcases spellingFault?_of_same settled same with none | long
    · rw [none]
    · rw [long]
  have trails : p.TrailsOff ↔ rest.getLast? = some [] ∨ rest.getLast? = some dot := by
    rw [Path.TrailsOff, cut, List.getLast?_cons_of_ne_nil more]
  have resolved : w.tree.shallow.resolve linkBound [] p.segments =
      if p.TrailsOff then .error .notADirectory else .ok l := by
    rw [cut, FileTree.resolve, if_pos (.inl rfl), FileTree.resolve_of_names ne file names]
    simp only [trails, List.nil_append]
  rcases w.tree.canonical_eq linkBound [] p.segments with eq | ⟨-, missing⟩
  · rw [led, eq, resolved]
  · -- nothing is missing on the way to the file
    rw [missing] at resolved
    split at resolved <;> cases resolved

/-- Under its own path, spelled as it may be, a file is found unless the spelling trails
off. -/
theorem file?_of_same (file : w.tree.shallow.lookup? l = some (.file content))
    (same : p.Same l.toPath) : w.file? p = if p.TrailsOff then none else some l := by
  rw [file?, canonicalize_of_same file same]
  by_cases trails : p.TrailsOff
  · simp [trails]
  · simp [trails, file]

end Workspace

end IncludeAtlas
