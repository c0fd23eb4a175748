import IncludeAtlas.Proofs.FileTree.Follow

/-!
# What a path comes by

A path that is looked up as it is spelled may lead as far down as the tree goes.  Made canonical,
the same path has every entry on its way looked up under the path of that entry from the root, and
such a path must not be too long.  This module says which entries those are, and that they make
the whole difference.

## Main Definitions

* `FileTree.Passes`: an entry that segments come by
* `Workspace.StaysWithin`: nothing that a path comes by is further down than some bound

## Main Results

* `FileTree.leads_shallow_iff`: segments lead somewhere in the shallow part of a tree if they lead
  there and come by nothing else
* `Workspace.canonicalize_of_locate`, `Workspace.staysWithin_of_canonicalize`: what can be looked
  up can be made canonical if it stays within the bound on paths, and what can be made canonical
  does
* `Workspace.staysWithin_of_forall`: in a tree that is nowhere too deep, every path does

## Design notes

A link is itself one of the entries on the way, at the place where it stands; what comes next is
where its target starts.  A place that is only left through `..` is no entry on the way: going up
takes a name away and looks nothing up.
-/

namespace IncludeAtlas

namespace FileTree

/-- An entry that some segments come by, the last one included. -/
inductive Passes (t : FileTree) : Location → List Bytes → Location → Prop
  | entry {cur : Location} {s : Bytes} {rest : List Bytes} {e : Entry} :
      t.lookup? (cur ++ [s]) = some e → Passes t cur (s :: rest) (cur ++ [s])
  | stay {cur x : Location} {s : Bytes} {rest : List Bytes} :
      s = [] ∨ s = dot → Passes t cur rest x → Passes t cur (s :: rest) x
  | up {cur x : Location} {rest : List Bytes} :
      Passes t cur.dropLast rest x → Passes t cur (dotDot :: rest) x
  | enter {cur x : Location} {s : Bytes} {rest : List Bytes} :
      t.lookup? (cur ++ [s]) = some .directory →
      Passes t (cur ++ [s]) rest x → Passes t cur (s :: rest) x
  | follow {cur x : Location} {s : Bytes} {rest : List Bytes} {target : Path} :
      t.lookup? (cur ++ [s]) = some (.link target) →
      Passes t (target.startFrom cur) (target.segments ++ rest) x → Passes t cur (s :: rest) x

variable {t : FileTree} {n : Nat} {cur l x : Location} {s : Bytes} {rest segments : List Bytes}

/-! ## Inversion -/

/-- An entry stands under a segment with a meaning of its own. -/
theorem meaning_of_lookup? {e : Entry} (there : t.lookup? (cur ++ [s]) = some e) :
    ¬ (s = [] ∨ s = dot) ∧ s ≠ dotDot := by
  obtain ⟨notEmpty, notDot, notDotDot, -⟩ := isName_of_lookup? there
  exact ⟨not_or.2 ⟨notEmpty, notDot⟩, notDotDot⟩

theorem passes_stay_iff (stays : s = [] ∨ s = dot) :
    t.Passes cur (s :: rest) x ↔ t.Passes cur rest x := by
  refine ⟨fun h => ?_, .stay stays⟩
  cases h with
  | entry there => exact absurd stays (meaning_of_lookup? there).1
  | stay _ passes => exact passes
  | up => exact absurd stays (by decide)
  | enter there => exact absurd stays (meaning_of_lookup? there).1
  | follow there => exact absurd stays (meaning_of_lookup? there).1

theorem passes_up_iff : t.Passes cur (dotDot :: rest) x ↔ t.Passes cur.dropLast rest x := by
  refine ⟨fun h => ?_, .up⟩
  cases h with
  | entry there => exact absurd rfl (meaning_of_lookup? there).2
  | stay stays => exact absurd stays (by decide)
  | up passes => exact passes
  | enter there => exact absurd rfl (meaning_of_lookup? there).2
  | follow there => exact absurd rfl (meaning_of_lookup? there).2

/-- Segments that start with the name of an entry come by the entry, and by what they come by from
there. -/
theorem passes_entry_iff {e : Entry} (there : t.lookup? (cur ++ [s]) = some e) :
    t.Passes cur (s :: rest) x ↔ x = cur ++ [s] ∨
      match e with
      | .directory => t.Passes (cur ++ [s]) rest x
      | .file _ => False
      | .link target => t.Passes (target.startFrom cur) (target.segments ++ rest) x := by
  constructor
  · intro h
    cases h with
    | entry => exact .inl rfl
    | stay stays => exact absurd stays (meaning_of_lookup? there).1
    | up => exact absurd rfl (meaning_of_lookup? there).2
    | enter directory passes =>
        obtain rfl := Option.some.inj (there.symm.trans directory)
        exact .inr passes
    | follow link passes =>
        obtain rfl := Option.some.inj (there.symm.trans link)
        exact .inr passes
  · rintro (rfl | passes)
    · exact .entry there
    · cases e with
      | directory => exact .enter there passes
      | file content => exact passes.elim
      | link target => exact .follow there passes

/-! ## The shallow part -/

/-- **Segments lead somewhere in the shallow part of a tree** exactly if they lead there in the tree
and nothing that they come by is too far down. -/
theorem leads_shallow_iff :
    t.shallow.Leads n cur segments l ↔
      t.Leads n cur segments l ∧ ∀ x, t.Passes cur segments x → x.Short := by
  constructor
  · intro h
    refine ⟨t.sustains_shallow.leads h, ?_⟩
    -- the way in the shallow part says what stands there, and that it is short
    induction h with
    | here => exact fun _ passes => nomatch passes
    | stay stays _ ih => exact fun x passes => ih x ((passes_stay_iff stays).1 passes)
    | up _ ih => exact fun x passes => ih x (passes_up_iff.1 passes)
    | enter directory _ ih =>
        obtain ⟨there, short⟩ := lookup?_shallow_eq_some_iff.1 directory
        intro x passes
        rcases (passes_entry_iff there).1 passes with rfl | passes
        · exact short
        · exact ih x passes
    | arrive file =>
        obtain ⟨there, short⟩ := lookup?_shallow_eq_some_iff.1 file
        intro x passes
        rcases (passes_entry_iff there).1 passes with rfl | passes
        · exact short
        · exact passes.elim
    | follow link _ ih =>
        obtain ⟨there, short⟩ := lookup?_shallow_eq_some_iff.1 link
        intro x passes
        rcases (passes_entry_iff there).1 passes with rfl | passes
        · exact short
        · exact ih x passes
  · rintro ⟨leads, short⟩
    induction leads with
    | here => exact .here
    | stay stays _ ih => exact .stay stays (ih fun x passes => short x (.stay stays passes))
    | up _ ih => exact .up (ih fun x passes => short x (.up passes))
    | enter directory _ ih =>
        exact .enter (lookup?_shallow_eq_some_iff.2 ⟨directory, short _ (.entry directory)⟩)
          (ih fun x passes => short x (.enter directory passes))
    | arrive file => exact .arrive (lookup?_shallow_eq_some_iff.2 ⟨file, short _ (.entry file)⟩)
    | follow link _ ih =>
        exact .follow (lookup?_shallow_eq_some_iff.2 ⟨link, short _ (.entry link)⟩)
          (ih fun x passes => short x (.follow link passes))

/-- What segments come by are entries. -/
theorem Passes.exists_mem (h : t.Passes cur segments x) : ∃ e, (x, e) ∈ t.entries := by
  induction h with
  | entry there => exact ⟨_, (lookup?_eq_some_iff (by simp)).1 there⟩
  | stay _ _ ih => exact ih
  | up _ ih => exact ih
  | enter _ _ ih => exact ih
  | follow _ _ ih => exact ih

end FileTree

/-! ## Paths -/

namespace Workspace

variable {w : Workspace} {p : Path} {l : Location} {bound bound' : Nat}

/-- Wherever a path leads, that place and every entry that the path comes by have paths of fewer
bytes than some bound. -/
def StaysWithin (w : Workspace) (bound : Nat) (p : Path) : Prop :=
  ∀ n l, w.tree.Leads n (p.startFrom w.directory) p.segments l →
    l.toPath.bytes.length < bound ∧
      ∀ x, w.tree.Passes (p.startFrom w.directory) p.segments x → x.toPath.bytes.length < bound

theorem StaysWithin.mono (h : w.StaysWithin bound p) (le : bound ≤ bound') :
    w.StaysWithin bound' p := fun n l leads =>
  ⟨Nat.lt_of_lt_of_le (h n l leads).1 le,
    fun x passes => Nat.lt_of_lt_of_le ((h n l leads).2 x passes) le⟩

/-- What can be made canonical can be looked up, if it is spelled shortly enough. -/
theorem locate_of_canonicalize (h : w.canonicalize p = .ok l)
    (short : p.bytes.length < pathBound) : w.locate p = .ok l := by
  obtain ⟨noNul, notEmpty, n, le, leads⟩ := canonicalize_eq_ok_iff.1 h
  exact locate_eq_ok_iff_leads.2 ⟨spellingFault?_eq_none_iff.2 ⟨noNul, notEmpty, short⟩, n, le,
    (FileTree.leads_shallow_iff.1 leads).1⟩

/-- What can be looked up can be made canonical, if nothing on the way is too far down. -/
theorem canonicalize_of_locate (h : w.locate p = .ok l) (within : w.StaysWithin pathBound p) :
    w.canonicalize p = .ok l := by
  obtain ⟨spelled, n, le, leads⟩ := locate_eq_ok_iff_leads.1 h
  obtain ⟨noNul, notEmpty, -⟩ := spellingFault?_eq_none_iff.1 spelled
  exact canonicalize_eq_ok_iff.2 ⟨noNul, notEmpty, n, le,
    FileTree.leads_shallow_iff.2 ⟨leads, (within n l leads).2⟩⟩

/-- If what can be made canonical leads to a place that is not too far down, then nothing on the
way is. -/
theorem staysWithin_of_canonicalize (h : w.canonicalize p = .ok l) (short : l.Short) :
    w.StaysWithin pathBound p := by
  obtain ⟨-, -, n, -, leads⟩ := canonicalize_eq_ok_iff.1 h
  obtain ⟨led, passes⟩ := FileTree.leads_shallow_iff.1 leads
  intro n' l' leads'
  obtain rfl := led.unique leads'
  exact ⟨short, passes⟩

/-- **In a tree that is nowhere too deep**, every path stays within the bound. -/
theorem staysWithin_of_forall (all : ∀ x ∈ w.tree.entries, x.1.toPath.bytes.length < bound)
    (root : 1 < bound) (here : w.tree.lookup? w.directory = some .directory) (p : Path) :
    w.StaysWithin bound p := by
  intro n l leads
  constructor
  · have led := FileTree.resolve_eq_ok_iff.2 ⟨n, Nat.le_refl n, leads⟩
    have settled := FileTree.settled_of_resolve (FileTree.lookup?_startFrom here p) led
    by_cases top : l = []
    · rw [top]
      exact root
    · obtain ⟨e, mem⟩ := settled.exists_mem top
      exact all _ mem
  · intro x passes
    obtain ⟨e, mem⟩ := passes.exists_mem
    exact all _ mem

end Workspace

end IncludeAtlas
