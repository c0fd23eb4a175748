import IncludeAtlas.Ignore.Filter
import IncludeAtlas.Proofs.FileTree.Tour

/-!
# What is ignored

Whether an entry is ignored is up to the directories that it stands in, all the way to the root of
the tree.  The directory that a scan starts from plays no part in it, but for one thing: what is
ignored there or above does not matter, as the scan has come past it already.

## Main Definitions

* `Workspace.Ignores`: an entry is ignored by the rules around it, or hidden
* `Prunes`: entries are left of others, each with what stands above it

## Main Results

* `FileTree.directories_above`: the directories between a location and another one further down
* `Workspace.prunes_filtered`: what is filtered out are the ignored entries and all below them

## What is load-bearing

The filter reads each level once and picks those around an entry out of the list of all.  That
list ascends, and so do the directories above an entry, from the outside in; so the levels it picks
are in order without being sorted.
-/

namespace IncludeAtlas

/-- Some entries are left of others: those that neither are cut nor stand below one that is, in
the order they had. -/
structure Prunes (cut : Location × Entry → Prop) (entries kept : List (Location × Entry)) :
    Prop where
  sublist : kept.Sublist entries
  mem_iff : ∀ e, e ∈ kept ↔ e ∈ entries ∧ ∀ d ∈ entries, d.1 <+: e.1 → ¬ cut d

namespace FileTree

variable {t : FileTree} {root l : Location} {e : Entry}

/-- Ways up from a location are ordered by their lengths. -/
theorem take_lt_take {i j : Nat} (lt : i < j) (le : j ≤ l.length) : l.take i < l.take j := by
  obtain ⟨n, rest, split⟩ : ∃ n rest, (l.take j).drop i = n :: rest :=
    List.exists_cons_of_length_pos (by simp; omega)
  have first : (l.take j).take i = l.take i := by
    rw [List.take_take, Nat.min_eq_left (Nat.le_of_lt lt)]
  have whole : l.take j = l.take i ++ n :: rest := by
    rw [← first, ← split, List.take_append_drop]
  rw [whole]
  exact Location.lt_append _ n rest

/-- **The directories between a location and an entry below it**, from the outside in. -/
theorem directories_above (here : (l, e) ∈ t.below root) :
    (((t.below root).filter fun x => x.2 = .directory).map Prod.fst).filter
        (fun d => d.isPrefixOf l && d ≠ l) =
      (List.range' (root.length + 1) (l.length - (root.length + 1))).map fun k => l.take k := by
  obtain ⟨mem, below⟩ := List.mem_filter.1 here
  simp only [Bool.and_eq_true, List.isPrefixOf_iff_prefix, decide_eq_true_eq] at below
  have ne : l ≠ [] := (t.named _ mem).1
  -- both lists ascend, so it is enough that they have the same elements
  refine List.Pairwise.eq_of_mem_iff (r := (· < ·)) ?_ ?_ fun d => ?_
  · have ascending : t.entries.Pairwise fun x y => x.1 < y.1 := t.ascending
    exact (List.pairwise_map.2 ((ascending.filter _).filter _)).filter _
  · refine List.pairwise_map.2 ((List.pairwise_lt_range' ..).imp_of_mem fun _ hj lt => ?_)
    have := List.mem_range'_1.1 hj
    exact take_lt_take lt (by omega)
  · simp only [List.mem_filter, List.mem_map, FileTree.below, Bool.and_eq_true,
      List.isPrefixOf_iff_prefix, decide_eq_true_eq, List.mem_range'_1]
    constructor
    · rintro ⟨⟨x, ⟨⟨-, rootAbove, notRoot⟩, -⟩, rfl⟩, above, notHere⟩
      refine ⟨x.1.length, ⟨?_, ?_⟩, (List.prefix_iff_eq_take.1 above).symm⟩
      · exact Nat.lt_of_le_of_ne rootAbove.length_le fun eq =>
          notRoot (rootAbove.eq_of_length eq).symm
      · have shorter : x.1.length < l.length :=
          Nat.lt_of_le_of_ne above.length_le fun eq => notHere (above.eq_of_length eq)
        omega
    · rintro ⟨k, ⟨low, high⟩, rfl⟩
      have above : l.take k <+: l := List.take_prefix k l
      have length : (l.take k).length = k := List.length_take_of_le (by omega)
      have notHere : l.take k ≠ l := fun eq => by rw [eq] at length; omega
      have notTop : l.take k ≠ [] := fun eq => by rw [eq, List.length_nil] at length; omega
      have rootAbove : root <+: l.take k :=
        List.prefix_of_prefix_length_le below.1 above (by omega)
      have notRoot : l.take k ≠ root := fun eq => by rw [eq] at length; omega
      have directory : (l.take k, .directory) ∈ t.entries := (lookup?_eq_some_iff notTop).1
        (lookup?_above ((lookup?_eq_some_iff ne).2 mem) above notHere)
      exact ⟨⟨_, ⟨⟨directory, rootAbove, notRoot⟩, rfl⟩, rfl⟩, above, notHere⟩

end FileTree

namespace Workspace

variable {w : Workspace} {t : FileTree} {root l : Location} {e : Entry}

/-- An entry is ignored: the rules of the directories that it stands in say so, or they say
nothing and it is hidden. -/
def Ignores (w : Workspace) (x : Location × Entry) : Prop :=
  skips (w.levelsFrom x.1.dropLast) x.1 x.2 = true

/-- The levels of a location on the way to another one, by the lengths of the ways. -/
theorem levelsFrom_take (w : Workspace) {n : Nat} (le : n ≤ l.length) :
    w.levelsFrom (l.take n) = ((List.range (n + 1)).map fun k => w.level (l.take k)).reverse := by
  rw [levelsFrom, List.length_take_of_le le, List.map_reverse]
  refine congrArg List.reverse (List.map_congr_left fun k hk => ?_)
  rw [List.take_take, Nat.min_eq_left (Nat.le_of_lt_succ (List.mem_range.1 hk))]

/-- **The levels that are picked for an entry** are those of all directories that it stands in,
from the inside out. -/
theorem levels_around (w : Workspace) (here : (l, e) ∈ t.below root) :
    (((((t.below root).filter fun x => x.2 = .directory).map Prod.fst).map w.level).filter
        fun v => v.directory.isPrefixOf l && v.directory ≠ l).reverse ++ w.levelsFrom root =
      w.levelsFrom l.dropLast := by
  obtain ⟨above, notRoot, -⟩ := FileTree.mem_below_iff.1 (List.mem_map_of_mem here)
  have shorter : root.length < l.length :=
    Nat.lt_of_le_of_ne above.length_le fun eq => notRoot (above.eq_of_length eq).symm
  have picks : (fun v : Level => v.directory.isPrefixOf l && v.directory ≠ l) ∘ w.level =
      fun d => d.isPrefixOf l && d ≠ l := rfl
  -- the ways up from an entry are the ones to the root, and the longer ones
  have ways : List.range (root.length + 1) ++
      List.range' (root.length + 1) (l.length - (root.length + 1)) = List.range l.length := by
    have cut := List.range'_append_1 (s := 0) (m := root.length + 1)
      (n := l.length - (root.length + 1))
    rwa [Nat.zero_add, Nat.add_sub_cancel' shorter, ← List.range_eq_range',
      ← List.range_eq_range'] at cut
  have outside := w.levelsFrom_take (Nat.le_of_lt shorter)
  rw [← List.prefix_iff_eq_take.1 above] at outside
  have all := w.levelsFrom_take (Nat.sub_le l.length 1)
  rw [← List.dropLast_eq_take, Nat.sub_add_cancel (by omega), ← ways] at all
  rw [List.filter_map, picks, FileTree.directories_above here, List.map_map, outside, all,
    ← List.reverse_append, List.map_append]
  rfl

/-- **What ignore files take away** are the entries that are ignored and everything below them. -/
theorem prunes_filtered (w : Workspace) (root : Location) :
    Prunes w.Ignores (w.tree.listed.below root) (w.filtered root) where
  sublist := List.filter_sublist
  mem_iff := by
    intro x
    rw [filtered, List.mem_filter]
    refine and_congr_right fun _ => ?_
    simp only [Bool.not_eq_true', List.any_eq_false, List.mem_map, List.mem_filter,
      List.isPrefixOf_iff_prefix]
    constructor
    · intro reached d hd above ignored
      refine reached d.1 ⟨d, ⟨hd, ?_⟩, rfl⟩ above
      rw [w.levels_around hd]
      exact ignored
    · rintro kept _ ⟨d, ⟨hd, skipped⟩, rfl⟩ above
      refine kept d hd above ?_
      rwa [w.levels_around hd] at skipped

end Workspace

end IncludeAtlas
