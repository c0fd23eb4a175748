import IncludeAtlas.Proofs.FileTree.Canonical
import Mathlib.Algebra.Order.BigOperators.Group.List
import Mathlib.Algebra.Order.Group.Nat
import Mathlib.Data.List.Sort

/-!
# Going through a tree

Everything below a directory, visited depth first: the entries of a directory by their names, and
what is in one of them right after it.  A link is visited and not entered, so no link leads the
tour astray or around in a circle.

## Main Definitions

* `FileTree.Lists`: the names in a directory, in their order
* `FileTree.Visits`: what is visited under some names in a directory
* `FileTree.Tours`: what is visited below a location
* `FileTree.Descends`: what can be reached from a location through directories
* `FileTree.Openable`: a tree whose directories and links have paths that are short enough to be
  opened

## Main Results

* `FileTree.Tours.mem_iff`: a tour visits what can be reached
* `FileTree.tours_iff`: every location has one tour, and that is everything below the location in
  the order of the tree

## What is load-bearing

Locations are compared name by name from the root, so a directory comes before everything in it,
and what is in one directory stays together.  A tour therefore ascends (`Visits.ascending`), and an
ascending list is known from its elements.
-/

namespace IncludeAtlas

namespace Location

variable {dir l l' : Location} {n m : Name}

/-- What is below a location comes after it. -/
theorem lt_append (dir : Location) (n : Name) (l : Location) : dir < dir ++ n :: l := by
  have : dir ++ [] < dir ++ n :: l := List.append_left_lt (List.nil_lt_cons n l)
  rwa [List.append_nil] at this

/-- What is below different names in a directory is ordered by the names. -/
theorem append_lt_append_of_lt (h : n < m) (dir l l' : Location) :
    dir ++ n :: l < dir ++ m :: l' :=
  List.append_left_lt (List.cons_lt_cons_iff.2 (.inl h))

/-- Names in one directory are ordered as their locations are. -/
theorem lt_of_append_lt (h : dir ++ [n] < dir ++ [m]) : n < m := by
  induction dir with
  | nil => simpa [List.cons_lt_cons_iff] using h
  | cons k dir ih =>
      rcases List.cons_lt_cons_iff.1 h with lt | ⟨-, lt⟩
      · exact absurd lt (List.lt_irrefl k)
      · exact ih lt

end Location

namespace FileTree

/-- The names in a directory, in the order of their bytes. -/
structure Lists (t : FileTree) (dir : Location) (names : List Name) : Prop where
  ascending : names.Pairwise (· < ·)
  complete : ∀ n, n ∈ names ↔ ∃ e, t.lookup? (dir ++ [n]) = some e

/-- What is visited under some names in a directory, one after the other: the entry itself, and
right after it, if it is a directory, everything in it. -/
inductive Visits (t : FileTree) : Location → List Name → List Location → Prop
  | done {dir : Location} : Visits t dir [] []
  | pass {dir : Location} {n : Name} {names : List Name} {e : Entry} {others : List Location} :
      t.lookup? (dir ++ [n]) = some e → e ≠ .directory →
      Visits t dir names others → Visits t dir (n :: names) ((dir ++ [n]) :: others)
  | enter {dir : Location} {n : Name} {names inner : List Name} {inside others : List Location} :
      t.lookup? (dir ++ [n]) = some .directory →
      t.Lists (dir ++ [n]) inner → Visits t (dir ++ [n]) inner inside →
      Visits t dir names others →
      Visits t dir (n :: names) ((dir ++ [n]) :: (inside ++ others))

/-- What is visited below a location. -/
def Tours (t : FileTree) (root : Location) (visited : List Location) : Prop :=
  ∃ names, t.Lists root names ∧ t.Visits root names visited

/-- What can be reached from a location through directories, without passing through a link. -/
inductive Descends (t : FileTree) (root : Location) : Location → Prop
  | child {n : Name} {e : Entry} :
      t.lookup? (root ++ [n]) = some e → Descends t root (root ++ [n])
  | deeper {dir : Location} {n : Name} {e : Entry} :
      Descends t root dir → t.lookup? dir = some .directory →
      t.lookup? (dir ++ [n]) = some e → Descends t root (dir ++ [n])

variable {t : FileTree} {root dir l : Location} {names : List Name} {visited : List Location}

/-! ## What is below a location -/

/-- The locations below a directory are different. -/
theorem nodup_below (t : FileTree) (l : Location) : ((t.below l).map Prod.fst).Nodup := by
  have ascending : (t.below l).Pairwise fun x y => x.1 < y.1 := List.Pairwise.filter _ t.ascending
  rw [List.Nodup, List.pairwise_map]
  refine ascending.imp fun lt eq => ?_
  rw [eq] at lt
  exact List.lt_irrefl _ lt

theorem mem_below_iff {root : Location} :
    l ∈ (t.below root).map Prod.fst ↔ root <+: l ∧ l ≠ root ∧ ∃ e, (l, e) ∈ t.entries := by
  have test : ∀ x : Location × Entry,
      (root.isPrefixOf x.1 && x.1 ≠ root) = true ↔ root <+: x.1 ∧ x.1 ≠ root := by
    intro x
    rw [Bool.and_eq_true, List.isPrefixOf_iff_prefix, decide_eq_true_eq]
  rw [below, List.mem_map]
  constructor
  · rintro ⟨x, mem, rfl⟩
    obtain ⟨mem, holds⟩ := List.mem_filter.1 mem
    exact ⟨((test x).1 holds).1, ((test x).1 holds).2, x.2, mem⟩
  · rintro ⟨under, ne, e, mem⟩
    exact ⟨(l, e), List.mem_filter.2 ⟨mem, (test (l, e)).2 ⟨under, ne⟩⟩, rfl⟩

/-- What is below a location is an entry under a name in it, or further down. -/
theorem mem_below_iff_exists_name :
    l ∈ (t.below root).map Prod.fst ↔
      ∃ n, (∃ e, t.lookup? (root ++ [n]) = some e) ∧ root ++ [n] <+: l ∧
        ∃ e, t.lookup? l = some e := by
  rw [mem_below_iff]
  constructor
  · rintro ⟨⟨rest, rfl⟩, ne, e, mem⟩
    obtain ⟨n, rest, rfl⟩ := List.exists_cons_of_ne_nil fun none : rest = [] => ne (by simp [none])
    have under : root ++ [n] <+: root ++ n :: rest := ⟨rest, by simp⟩
    have there : t.lookup? (root ++ n :: rest) = some e := (lookup?_eq_some_iff (by simp)).2 mem
    refine ⟨n, ?_, under, e, there⟩
    by_cases here : root ++ [n] = root ++ n :: rest
    · exact ⟨e, here ▸ there⟩
    · exact ⟨_, lookup?_above there under here⟩
  · rintro ⟨n, -, ⟨rest, rfl⟩, e, there⟩
    refine ⟨⟨n :: rest, by simp⟩, by simp, e, (lookup?_eq_some_iff (by simp)).1 there⟩

/-- What is below a location is what can be reached from it through directories. -/
theorem descends_iff : t.Descends root l ↔ l ∈ (t.below root).map Prod.fst := by
  rw [mem_below_iff]
  constructor
  · intro h
    induction h with
    | child there =>
        exact ⟨List.prefix_append _ _, by simp, _, (lookup?_eq_some_iff (by simp)).1 there⟩
    | deeper _ _ there ih =>
        refine ⟨ih.1.trans (List.prefix_append _ _), ?_, _, (lookup?_eq_some_iff (by simp)).1 there⟩
        intro eq
        have := ih.1.length_le
        rw [← eq, List.length_append, List.length_singleton] at this
        omega
  · rintro ⟨⟨rest, rfl⟩, ne, e, mem⟩
    have there : t.lookup? (root ++ rest) = some e :=
      (lookup?_eq_some_iff (t.named _ mem).1).2 mem
    clear mem
    induction rest using List.reverseRecOn generalizing e with
    | nil => exact absurd (List.append_nil root) ne
    | append_singleton rest n ih =>
        rw [← List.append_assoc] at there ⊢
        by_cases last : rest = []
        · rw [last, List.append_nil] at there ⊢
          exact .child there
        · have above : t.lookup? (root ++ rest) = some .directory :=
            lookup?_above there (List.prefix_append _ _) (by simp)
          exact .deeper (ih (by simpa using last) _ above) above there

/-! ## What is in a directory -/

/-- Every directory has its names. -/
theorem exists_lists (t : FileTree) (dir : Location) : ∃ names, t.Lists dir names := by
  -- the last names of all entries that stand right in the directory
  have name : ∀ (x : Location × Entry) (n : Name),
      (if x.1.dropLast = dir then x.1.getLast? else none) = some n ↔ x.1 = dir ++ [n] := by
    intro x n
    constructor
    · intro h
      split at h
      · rename_i here
        obtain ⟨above, eq⟩ := List.getLast?_eq_some_iff.1 h
        rw [← here, eq, List.dropLast_concat]
      · cases h
    · intro eq
      simp [eq]
  refine ⟨t.entries.filterMap fun x => if x.1.dropLast = dir then x.1.getLast? else none, ?_, ?_⟩
  · rw [List.pairwise_filterMap]
    have ascending : t.entries.Pairwise fun x y => x.1 < y.1 := t.ascending
    refine ascending.imp fun {x y} lt n hn m hm => ?_
    rw [(name x n).1 hn, (name y m).1 hm] at lt
    exact Location.lt_of_append_lt lt
  · intro n
    rw [List.mem_filterMap]
    simp only [name]
    constructor
    · rintro ⟨⟨l, e⟩, mem, rfl⟩
      exact ⟨e, (lookup?_eq_some_iff (by simp)).2 mem⟩
    · rintro ⟨e, there⟩
      exact ⟨_, (lookup?_eq_some_iff (by simp)).1 there, rfl⟩

/-! ## What is visited -/

/-- What is visited stands under one of the names. -/
theorem Visits.exists_name (h : t.Visits dir names visited) (hl : l ∈ visited) :
    ∃ n ∈ names, ∃ rest, l = dir ++ n :: rest := by
  induction h with
  | done => cases hl
  | pass _ _ _ ih =>
      rcases List.mem_cons.1 hl with rfl | hl
      · exact ⟨_, List.mem_cons_self, [], rfl⟩
      · obtain ⟨n, hn, rest, rfl⟩ := ih hl
        exact ⟨n, List.mem_cons_of_mem _ hn, rest, rfl⟩
  | @enter _ n _ _ _ _ _ _ _ _ ihInside ih =>
      rcases List.mem_cons.1 hl with rfl | hl
      · exact ⟨n, List.mem_cons_self, [], rfl⟩
      · rcases List.mem_append.1 hl with hl | hl
        · obtain ⟨m, -, rest, rfl⟩ := ihInside hl
          exact ⟨n, List.mem_cons_self, m :: rest, by simp⟩
        · obtain ⟨m, hm, rest, rfl⟩ := ih hl
          exact ⟨m, List.mem_cons_of_mem n hm, rest, rfl⟩

/-- Where names ascend, what is visited ascends. -/
theorem Visits.ascending (h : t.Visits dir names visited) (sorted : names.Pairwise (· < ·)) :
    visited.Pairwise (· < ·) := by
  induction h with
  | done => exact .nil
  | @pass dir n _ _ _ _ _ visits ih =>
      obtain ⟨first, sorted⟩ := List.pairwise_cons.1 sorted
      refine List.pairwise_cons.2 ⟨fun l hl => ?_, ih sorted⟩
      obtain ⟨m, hm, rest, rfl⟩ := visits.exists_name hl
      exact Location.append_lt_append_of_lt (first m hm) dir [] rest
  | @enter dir n _ _ _ others _ lists inner visits ihInside ih =>
      obtain ⟨first, sorted⟩ := List.pairwise_cons.1 sorted
      have later : ∀ l, ∀ l' ∈ others, dir ++ n :: l < l' := by
        intro l l' hl'
        obtain ⟨m, hm, rest, rfl⟩ := visits.exists_name hl'
        exact Location.append_lt_append_of_lt (first m hm) dir l rest
      refine List.pairwise_cons.2 ⟨fun l hl => ?_, List.pairwise_append.2
        ⟨ihInside lists.ascending, ih sorted, fun l hl l' hl' => ?_⟩⟩
      · rcases List.mem_append.1 hl with hl | hl
        · obtain ⟨m, -, rest, rfl⟩ := inner.exists_name hl
          exact Location.lt_append (dir ++ [n]) m rest
        · exact later [] l hl
      · obtain ⟨m, -, rest, rfl⟩ := inner.exists_name hl
        rw [List.append_assoc]
        exact later (m :: rest) l' hl'

/-- What is visited is everything at the names and below them. -/
theorem Visits.mem_iff (h : t.Visits dir names visited) :
    l ∈ visited ↔ ∃ n ∈ names, dir ++ [n] <+: l ∧ ∃ e, t.lookup? l = some e := by
  induction h with
  | done => simp
  | @pass dir n _ e _ there noDirectory _ ih =>
      rw [List.mem_cons, ih, List.exists_mem_cons_iff]
      refine or_congr_left ⟨?_, ?_⟩
      · rintro rfl
        exact ⟨List.prefix_rfl, e, there⟩
      · rintro ⟨under, e', below⟩
        by_contra other
        -- nothing is below what is no directory
        rw [lookup?_above below under (Ne.symm other)] at there
        exact noDirectory (Option.some.inj there).symm
  | @enter dir n _ _ _ _ directory lists _ _ ihInside ih =>
      rw [List.mem_cons, List.mem_append, ih, ihInside, List.exists_mem_cons_iff, ← or_assoc]
      refine or_congr_left ?_
      simp only [lists.complete]
      rw [← mem_below_iff_exists_name, mem_below_iff]
      constructor
      · rintro (rfl | ⟨under, -, e, mem⟩)
        · exact ⟨List.prefix_rfl, _, directory⟩
        · exact ⟨under, e, (lookup?_eq_some_iff (t.named _ mem).1).2 mem⟩
      · rintro ⟨under, e, there⟩
        refine or_iff_not_imp_left.2 fun other => ⟨under, other, e, ?_⟩
        refine (lookup?_eq_some_iff ?_).1 there
        rintro rfl
        simp at under

/-- Whatever names there are in a directory, something is visited under them. -/
theorem exists_visits (t : FileTree) (dir : Location) (names : List Name)
    (there : ∀ n ∈ names, ∃ e, t.lookup? (dir ++ [n]) = some e) :
    ∃ visited, t.Visits dir names visited := by
  -- no entry is deeper down than some bound, so the distance to it bounds the recursion
  obtain ⟨depth, bounded⟩ : ∃ depth, ∀ x ∈ t.entries, x.1.length ≤ depth :=
    ⟨(t.entries.map fun x => x.1.length).sum,
      fun x hx => List.le_sum_of_mem (List.mem_map_of_mem hx)⟩
  obtain ⟨k, near⟩ : ∃ k, depth ≤ dir.length + k := ⟨depth, Nat.le_add_left _ _⟩
  induction k generalizing dir names with
  | zero =>
      cases names with
      | nil => exact ⟨[], .done⟩
      | cons n names =>
          obtain ⟨e, here⟩ := there n List.mem_cons_self
          have := bounded _ ((lookup?_eq_some_iff (by simp)).1 here)
          rw [List.length_append, List.length_singleton] at this
          omega
  | succ k ih =>
      induction names with
      | nil => exact ⟨[], .done⟩
      | cons n names ihNames =>
          obtain ⟨e, here⟩ := there n List.mem_cons_self
          obtain ⟨others, visits⟩ := ihNames fun m hm => there m (List.mem_cons_of_mem n hm)
          by_cases directory : e = .directory
          · subst directory
            obtain ⟨inner, lists⟩ := t.exists_lists (dir ++ [n])
            obtain ⟨inside, visitsInside⟩ := ih (dir ++ [n]) inner
              (fun m hm => (lists.complete m).1 hm)
              (by rw [List.length_append, List.length_singleton]; omega)
            exact ⟨_, .enter here lists visitsInside visits⟩
          · exact ⟨_, .pass here directory visits⟩

/-! ## Tours -/

/-- A tour visits everything below its location. -/
theorem Tours.mem_below_iff (h : t.Tours root visited) :
    l ∈ visited ↔ l ∈ (t.below root).map Prod.fst := by
  obtain ⟨names, lists, visits⟩ := h
  rw [visits.mem_iff, mem_below_iff_exists_name]
  simp only [lists.complete]

/-- **A tour visits what can be reached.** -/
theorem Tours.mem_iff (h : t.Tours root visited) : l ∈ visited ↔ t.Descends root l := by
  rw [h.mem_below_iff, descends_iff]

/-- A tour ascends. -/
theorem Tours.ascending (h : t.Tours root visited) : visited.Pairwise (· < ·) := by
  obtain ⟨names, lists, visits⟩ := h
  exact visits.ascending lists.ascending

/-- **Every location has one tour**, and that is everything below the location in the order of the
tree. -/
theorem tours_iff : t.Tours root visited ↔ visited = (t.below root).map Prod.fst := by
  have sorted : ((t.below root).map Prod.fst).Pairwise (· < ·) :=
    List.pairwise_map.2 (List.Pairwise.filter _ t.ascending)
  have unique : ∀ {visited}, t.Tours root visited → visited = (t.below root).map Prod.fst :=
    fun h => h.ascending.eq_of_mem_iff sorted fun _ => h.mem_below_iff
  refine ⟨unique, ?_⟩
  rintro rfl
  obtain ⟨names, lists⟩ := t.exists_lists root
  obtain ⟨visited, visits⟩ := t.exists_visits root names fun n hn => (lists.complete n).1 hn
  have tours : t.Tours root visited := ⟨names, lists, visits⟩
  exact unique tours ▸ tours

/-! ## What can be opened -/

/-- Every directory and every link has a path that is short enough to be opened.  Files may stand
further down than that by their names. -/
def Openable (t : FileTree) : Prop :=
  ∀ x ∈ t.entries, (∀ content, x.2 ≠ .file content) → Location.Short x.1

theorem openable_of_short (h : ∀ x ∈ t.entries, Location.Short x.1) : t.Openable :=
  fun x hx _ => h x hx

/-- What stands in a tree that can be opened stands in a directory that can be listed. -/
theorem Openable.below_listed (h : t.Openable) (root : Location) :
    t.listed.below root = t.below root := by
  have seen : t.listed.entries = t.entries := by
    refine List.filter_eq_self.2 fun x hx => decide_eq_true ?_
    rcases t.rooted x hx with top | directory
    · rw [top]
      decide
    · exact h _ directory (by simp)
  rw [below, below, seen]

/-- What has too long a path in such a tree is a file. -/
theorem Openable.exists_file (h : t.Openable) {e : Entry} (mem : (l, e) ∈ t.entries)
    (far : ¬ l.Short) : ∃ content, t.lookup? l = some (.file content) := by
  have there : t.lookup? l = some e := (lookup?_eq_some_iff (t.named _ mem).1).2 mem
  cases e with
  | directory => exact absurd (h _ mem (by simp)) far
  | file content => exact ⟨content, there⟩
  | link target => exact absurd (h _ mem (by simp)) far

end FileTree

end IncludeAtlas
