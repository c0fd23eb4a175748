import IncludeAtlas.Search
import Mathlib.Data.List.Basic
import Mathlib.Data.List.Induction

/-!
# Canonical paths

A location is the end of a path when nothing there leads further: a directory or a file.
This module proves that resolution ends at such places only, and that the path of such a
place leads back to it.

## Main Definitions

* `FileTree.Settled`: nothing at a location leads further

## Main Results

* `FileTree.settled_of_resolve`: resolution that starts in a directory ends at a settled
  location
* `FileTree.canonical_eq_ok_iff`: what is made canonical is resolved in the shallow part of
  the tree
* `Workspace.locate_toPath`: the path of a settled location denotes it, from everywhere
* `Workspace.readText_toPath`: reading that path reads the file
* `Location.same_toPath_iff`: two locations of a tree have one path only if they are one

## Design notes

Both directions rest on what the type of trees carries: everything above an entry is a
directory of the tree, and every name is one that resolution takes as a name.  The path has to
be short enough to be looked up as well, so the location has to be one of the shallow part.
-/

namespace IncludeAtlas

/-! ## What stands above an entry -/

namespace FileTree

variable {t : FileTree} {l p cur : Location} {content : Bytes} {links : Nat}

/-- Nothing at the location leads further: it is a directory or a file. -/
def Settled (t : FileTree) (l : Location) : Prop :=
  t.lookup? l = some .directory ∨ ∃ content, t.lookup? l = some (.file content)

/-- Below the root, a location with an entry is one of the tree. -/
theorem Settled.exists_mem (h : t.Settled l) (ne : l ≠ []) : ∃ e, (l, e) ∈ t.entries := by
  rcases h with directory | ⟨content, file⟩
  · exact ⟨_, (lookup?_eq_some_iff ne).1 directory⟩
  · exact ⟨_, (lookup?_eq_some_iff ne).1 file⟩

/-- The location right above an entry is a directory. -/
theorem lookup?_dropLast_of_mem {e : Location × Entry} (h : e ∈ t.entries) :
    t.lookup? e.1.dropLast = some .directory := by
  rcases t.rooted e h with top | below
  · rw [top]
    exact t.lookup?_root
  · by_cases top : e.1.dropLast = []
    · rw [top]
      exact t.lookup?_root
    · exact (lookup?_eq_some_iff top).2 below

/-- Everything above an entry is a directory. -/
theorem lookup?_above {e : Entry} (there : t.lookup? l = some e) (above : p <+: l)
    (ne : p ≠ l) : t.lookup? p = some .directory := by
  induction l using List.reverseRecOn generalizing e with
  | nil => exact absurd (List.prefix_nil.1 above) ne
  | append_singleton l n ih =>
      have parent := lookup?_dropLast_of_mem ((lookup?_eq_some_iff (by simp)).1 there)
      rw [List.dropLast_concat] at parent
      rcases List.prefix_concat_iff.1 above with eq | above
      · exact absurd eq ne
      · by_cases eq : p = l
        · rwa [eq]
        · exact ih parent above eq

/-- Everything above a settled location is a directory. -/
theorem lookup?_of_prefix_of_ne (h : t.Settled l) (above : p <+: l) (ne : p ≠ l) :
    t.lookup? p = some .directory := by
  rcases h with directory | ⟨content, file⟩
  · exact lookup?_above directory above ne
  · exact lookup?_above file above ne

/-- On the way to a settled location, every name but the last one is that of a directory. -/
theorem Settled.lookup?_step {n : Name} {names : List Name} (h : t.Settled (cur ++ n :: names))
    (more : names ≠ []) : t.lookup? (cur ++ [n]) = some .directory := by
  rw [List.append_cons] at h
  exact lookup?_of_prefix_of_ne h (List.prefix_append _ _) (by simp [more])

/-- Going up from a directory leads to a directory. -/
theorem lookup?_dropLast (h : t.lookup? l = some .directory) :
    t.lookup? l.dropLast = some .directory := by
  by_cases top : l = []
  · rwa [top] at h ⊢
  · obtain ⟨e, mem⟩ := Settled.exists_mem (.inl h) top
    exact lookup?_dropLast_of_mem mem

/-- The names on the way to an entry are names. -/
theorem Settled.isName (h : t.Settled l) {n : Name} (hn : n ∈ l) : IsName n := by
  obtain ⟨e, mem⟩ := h.exists_mem (List.ne_nil_of_mem hn)
  exact (t.named _ mem).2 n hn

/-! ## Where resolution ends -/

/-- Resolution that starts in a directory ends where nothing leads further. -/
theorem settled_of_resolve {segments : List Bytes}
    (start : t.lookup? cur = some .directory) (h : t.resolve links cur segments = .ok l) :
    t.Settled l := by
  fun_induction FileTree.resolve t links cur segments with
  | case1 => exact .inl (by rwa [← Except.ok.inj h])
  | case2 _ _ _ _ _ ih => exact ih start h
  | case3 _ _ _ _ ih => exact ih (lookup?_dropLast start) h
  | case4 => cases h
  | case5 => cases h
  | case6 _ _ _ _ _ _ _ directory ih => exact ih directory h
  | case7 _ _ _ _ _ _ content file => exact .inr ⟨content, by rwa [← Except.ok.inj h]⟩
  | case8 => cases h
  | case9 => cases h
  | case10 cur s rest _ _ _ target _ n ih =>
      -- a target is followed from the root or from the directory of its link
      refine ih ?_ h
      rw [Path.startFrom]
      split
      · exact t.lookup?_root
      · exact start

/-- Every entry stands under a name. -/
theorem isName_of_lookup? {s : Bytes} {e : Entry} (there : t.lookup? (cur ++ [s]) = some e) :
    IsName s :=
  (t.named _ ((lookup?_eq_some_iff (by simp)).1 there)).2 s (by simp)

/-- After a name, resolution goes on with what stands under it. -/
theorem resolve_cons {s : Bytes} (isName : IsName s) (rest : List Bytes) :
    t.resolve links cur (s :: rest) =
      match t.lookup? (cur ++ [s]) with
      | none => .error .notFound
      | some .directory => t.resolve links (cur ++ [s]) rest
      | some (.file _) => if rest = [] then .ok (cur ++ [s]) else .error .notADirectory
      | some (.link target) =>
        match links with
        | 0 => .error .tooManyLinks
        | n + 1 => t.resolve n (target.startFrom cur) (target.segments ++ rest) := by
  obtain ⟨notEmpty, notDot, notDotDot, -, -, short⟩ := isName
  have notStaying : ¬ (s = [] ∨ s = dot) := not_or.2 ⟨notEmpty, notDot⟩
  rw [FileTree.resolve]
  exact (if_neg notStaying).trans ((if_neg notDotDot).trans (if_neg (Nat.not_lt.2 short)))

/-- The names on the way to a directory lead there, whatever comes after them. -/
theorem resolve_names_append {names : List Name} (rest : List Bytes)
    (h : t.lookup? (cur ++ names) = some .directory) :
    t.resolve links cur (names ++ rest) = t.resolve links (cur ++ names) rest := by
  induction names generalizing cur with
  | nil => rw [List.nil_append, List.append_nil]
  | cons n names ih =>
      have settled : t.Settled (cur ++ n :: names) := .inl h
      have step : cur ++ n :: names = (cur ++ [n]) ++ names := by simp
      have above : t.lookup? (cur ++ [n]) = some .directory := by
        by_cases last : names = []
        · rwa [last] at h
        · exact settled.lookup?_step last
      rw [List.cons_append, resolve_cons (settled.isName (by simp)), above, step]
      exact ih (by rwa [step] at h)

/-- The names on the way to a settled location lead there. -/
theorem resolve_names (names : List Name) (h : t.Settled (cur ++ names)) :
    t.resolve links cur names = .ok (cur ++ names) := by
  induction names generalizing cur with
  | nil => rw [List.append_nil, FileTree.resolve]
  | cons n names ih =>
      have isName : IsName n := h.isName (by simp)
      have step : cur ++ n :: names = (cur ++ [n]) ++ names := by simp
      rw [resolve_cons isName]
      -- only the last name may be that of a file; before it there are directories
      cases names with
      | nil =>
          rcases h with directory | ⟨content, file⟩
          · simp only [directory, FileTree.resolve]
          · simp only [file, if_true]
      | cons m names =>
          rw [h.lookup?_step (List.cons_ne_nil m names), step]
          exact ih (by rwa [step] at h)

/-! ## The shallow part -/

/-- What is settled in the shallow part is settled in the tree. -/
theorem Settled.of_shallow (h : t.shallow.Settled l) : t.Settled l :=
  h.imp lookup?_of_shallow fun ⟨content, file⟩ => ⟨content, lookup?_of_shallow file⟩

theorem Settled.short (h : t.shallow.Settled l) : l.Short := by
  rcases h with directory | ⟨content, file⟩
  · exact (lookup?_shallow_eq_some_iff.1 directory).2
  · exact (lookup?_shallow_eq_some_iff.1 file).2

/-- After a name that is not too far down, the shallow part goes on like the tree. -/
theorem resolve_shallow_cons {s : Bytes} (moves : ¬ (s = [] ∨ s = dot)) (ne : s ≠ dotDot)
    (fits : ¬ (nameBound < s.length ∨ ¬ Location.Short (cur ++ [s]))) (rest : List Bytes) :
    t.shallow.resolve links cur (s :: rest) =
      match t.lookup? (cur ++ [s]) with
      | none => .error .notFound
      | some .directory => t.shallow.resolve links (cur ++ [s]) rest
      | some (.file _) => if rest = [] then .ok (cur ++ [s]) else .error .notADirectory
      | some (.link target) =>
        match links with
        | 0 => .error .tooManyLinks
        | n + 1 => t.shallow.resolve n (target.startFrom cur) (target.segments ++ rest) := by
  obtain ⟨name, short⟩ := not_or.1 fits
  have seen : t.shallow.lookup? (cur ++ [s]) = t.lookup? (cur ++ [s]) := by
    rw [lookup?_shallow, if_pos (not_not.1 short)]
  rw [FileTree.resolve, if_neg moves, if_neg ne, if_neg name]
  exact seen ▸ rfl

/-- **What is made canonical is resolved in the shallow part of the tree**, except that places
further down are there not missing but out of reach. -/
theorem canonical_eq (t : FileTree) (links : Nat) (cur : Location) (segments : List Bytes) :
    t.canonical links cur segments = t.shallow.resolve links cur segments ∨
      t.canonical links cur segments = .error .nameTooLong ∧
        t.shallow.resolve links cur segments = .error .notFound := by
  fun_induction FileTree.canonical t links cur segments with
  | case1 => exact .inl (by rw [FileTree.resolve])
  | case2 _ _ _ _ stays ih => rwa [FileTree.resolve, if_pos stays]
  | case3 _ _ _ moves ih => rwa [FileTree.resolve, if_neg moves, if_pos rfl]
  | case4 links cur s rest moves ne long =>
      rw [FileTree.resolve, if_neg moves, if_neg ne]
      by_cases name : nameBound < s.length
      · exact .inl (if_pos name).symm
      · -- an entry that far down is none of the shallow part
        rw [if_neg name, lookup?_shallow, if_neg (long.resolve_left name)]
        exact .inr ⟨rfl, rfl⟩
  | case5 _ _ _ _ moves ne fits missing =>
      rw [resolve_shallow_cons moves ne fits, missing]
      exact .inl rfl
  | case6 _ _ _ _ moves ne fits directory ih =>
      rwa [resolve_shallow_cons moves ne fits, directory]
  | case7 _ _ _ moves ne fits _ file =>
      rw [resolve_shallow_cons moves ne fits, file]
      exact .inl rfl
  | case8 _ _ _ _ moves ne fits _ file more =>
      rw [resolve_shallow_cons moves ne fits, file]
      exact .inl (if_neg more).symm
  | case9 _ _ _ moves ne fits _ link =>
      rw [resolve_shallow_cons moves ne fits, link]
      exact .inl rfl
  | case10 _ _ _ moves ne fits _ link n ih =>
      rwa [resolve_shallow_cons moves ne fits, link]

theorem canonical_eq_ok_iff {segments : List Bytes} :
    t.canonical links cur segments = .ok l ↔ t.shallow.resolve links cur segments = .ok l := by
  rcases t.canonical_eq links cur segments with eq | ⟨far, missing⟩
  · rw [eq]
  · rw [far, missing]
    constructor <;> exact fun h => nomatch h

/-- What is made canonical from the root ends at a settled location of the shallow part. -/
theorem settled_of_canonical {segments : List Bytes} (h : t.canonical links [] segments = .ok l) :
    t.shallow.Settled l :=
  settled_of_resolve t.shallow.lookup?_root (canonical_eq_ok_iff.1 h)

/-- An entry that is seen and has too long a path cannot be made canonical. -/
theorem exists_canonical_eq_error {e : Entry} (seen : (l, e) ∈ t.listed.entries)
    (far : ¬ l.Short) (links : Nat) : ∃ fault, t.canonical links [] l = .error fault := by
  obtain ⟨there, short⟩ := mem_restrict_iff.1 seen
  obtain ⟨ne, named⟩ := t.named _ there
  obtain ⟨above, n, rfl⟩ := (List.eq_nil_or_concat' l).resolve_left ne
  have directory := lookup?_dropLast_of_mem there
  simp only [List.dropLast_concat] at directory short
  have here : t.shallow.lookup? ([] ++ above) = some .directory :=
    lookup?_shallow_eq_some_iff.2 ⟨directory, short⟩
  have missing : t.shallow.resolve links [] (above ++ [n]) = .error .notFound := by
    rw [resolve_names_append [n] here, List.nil_append, resolve_cons (named n (by simp)),
      lookup?_shallow, if_neg far]
  rcases t.canonical_eq links [] (above ++ [n]) with eq | ⟨tooLong, -⟩
  · exact ⟨_, eq.trans missing⟩
  · exact ⟨_, tooLong⟩

end FileTree

/-! ## The path of a location -/

namespace Location

variable {l l' : Location}

theorem toPath_of_ne_nil (h : l ≠ []) : l.toPath = ⟨l.flatMap fun n => slash :: n⟩ :=
  if_neg h

theorem isAbsolute_toPath (l : Location) : l.toPath.isAbsolute = true := by
  cases l with
  | nil => rfl
  | cons n names => simp [toPath, Path.isAbsolute]

/-- Names joined by slashes are cut back into the names. -/
theorem pieces_join {n : Name} {names : List Name} (h : ∀ m ∈ n :: names, slash ∉ m) :
    Cut.pieces slash (n ++ names.flatMap fun m => slash :: m) = n :: names := by
  induction names generalizing n with
  | nil =>
      rw [List.flatMap_nil, List.append_nil]
      exact Cut.pieces_of_notMem (h n List.mem_cons_self)
  | cons m names ih =>
      rw [List.flatMap_cons, List.cons_append, Cut.pieces_append (h n List.mem_cons_self),
        ih fun k hk => h k (List.mem_cons_of_mem n hk)]

/-- The path of a location is cut into nothing, before the first slash, and the names. -/
theorem segments_toPath (ne : l ≠ []) (h : ∀ n ∈ l, slash ∉ n) :
    l.toPath.segments = [] :: l := by
  cases l with
  | nil => exact absurd rfl ne
  | cons n names =>
      rw [toPath_of_ne_nil ne, Path.segments, List.flatMap_cons, List.cons_append,
        show ∀ s, Cut.pieces slash (slash :: s) = [] :: Cut.pieces slash s from
          Cut.pieces_append List.not_mem_nil, pieces_join h]

/-- The components of the path of a location are the root and the names. -/
theorem components_toPath (h : ∀ n ∈ l, IsName n) :
    l.toPath.components = .root :: l.map .name := by
  by_cases top : l = []
  · subst top
    decide
  · have names : l.filterMap Path.componentOf? = l.map .name := by
      rw [← List.filterMap_eq_map]
      refine List.filterMap_congr fun n hn => ?_
      obtain ⟨ne, notDot, notDotDot, -⟩ := h n hn
      simp [Path.componentOf?, ne, notDot, notDotDot]
    rw [Path.components, segments_toPath top fun n hn => (h n hn).2.2.2.1]
    simp [Path.leading?, isAbsolute_toPath, names]

/-- Two locations have one path only if they are one. -/
theorem same_toPath_iff (h : ∀ n ∈ l, IsName n) (h' : ∀ n ∈ l', IsName n) :
    l.toPath.Same l'.toPath ↔ l = l' := by
  rw [Path.Same, components_toPath h, components_toPath h', List.cons.injEq,
    List.map_inj_right fun _ _ => Component.name.inj]
  exact and_iff_right rfl

end Location

/-! ## What the path of a location denotes -/

namespace Workspace

variable {w : Workspace} {l : Location} {content : Bytes}

theorem not_mem_bytes_toPath {b : UInt8} (ne : b ≠ slash) (h : ∀ n ∈ l, b ∉ n) :
    b ∉ l.toPath.bytes := by
  by_cases top : l = []
  · simpa [top, Location.toPath] using ne
  · rw [Location.toPath_of_ne_nil top]
    simpa [ne] using h

/-- The path of a settled location can be spelled. -/
theorem spellingFault?_toPath (h : w.tree.shallow.Settled l) :
    spellingFault? l.toPath = none := by
  have noNul : 0 ∉ l.toPath.bytes :=
    not_mem_bytes_toPath (by decide) fun n hn => (h.isName hn).2.2.2.2.1
  have notEmpty : l.toPath.bytes ≠ [] := by
    intro empty
    have := l.isAbsolute_toPath
    rw [Path.isAbsolute, empty] at this
    cases this
  simp [spellingFault?, noNul, notEmpty, Nat.not_le.2 h.short]

/-- From the root, the segments of its path lead to a settled location. -/
theorem resolve_segments_toPath {t : FileTree} (h : t.Settled l) (links : Nat) :
    t.resolve links [] l.toPath.segments = .ok l := by
  by_cases top : l = []
  · subst top
    show t.resolve links [] [[], []] = .ok []
    simp [FileTree.resolve]
  · rw [Location.segments_toPath top fun n hn => (h.isName hn).2.2.2.1, FileTree.resolve,
      if_pos (.inl rfl)]
    exact FileTree.resolve_names l h

/-- **The path of a settled location denotes it**, whatever directory relative paths start
from. -/
theorem locate_toPath (h : w.tree.shallow.Settled l) : w.locate l.toPath = .ok l := by
  rw [locate, spellingFault?_toPath h, Path.startFrom, if_pos l.isAbsolute_toPath]
  exact resolve_segments_toPath h.of_shallow linkBound

/-- The path of a settled location leads to it. -/
theorem canonicalize_toPath (h : w.tree.shallow.Settled l) :
    w.canonicalize l.toPath = .ok l := by
  rw [canonicalize, spellingFault?_toPath h, Path.startFrom, if_pos l.isAbsolute_toPath]
  exact FileTree.canonical_eq_ok_iff.2 (resolve_segments_toPath h linkBound)

/-- Reading the path of a file reads the file. -/
theorem readText_toPath (h : w.tree.shallow.lookup? l = some (.file content)) :
    w.readText l.toPath =
      match Utf8.decode? content with
      | some s => .ok s
      | none => .error .notText := by
  have there : w.read l.toPath = .ok content := by
    rw [read, locate_toPath (.inr ⟨content, h⟩)]
    show w.contentAt l = .ok content
    rw [contentAt, FileTree.lookup?_of_shallow h]
  rw [readText, there]
  rfl

/-- The path of a directory cannot be read. -/
theorem readText_toPath_directory (h : w.tree.shallow.lookup? l = some .directory) :
    w.readText l.toPath = .error .isADirectory := by
  have there : w.read l.toPath = .error .isADirectory := by
    rw [read, locate_toPath (.inl h)]
    show w.contentAt l = .error .isADirectory
    rw [contentAt, FileTree.lookup?_of_shallow h]
  rw [readText, there]
  rfl

/-- A path denotes a directory if that is what stands where it leads. -/
theorem isDirectory_eq_true_iff {p : Path} :
    w.isDirectory p = true ↔ ∃ l, w.locate p = .ok l ∧ w.tree.lookup? l = some .directory := by
  rw [isDirectory, entry?]
  cases w.locate p <;> simp

/-- What is found for a path is a file of the tree. -/
theorem file?_eq_some_iff {p : Path} :
    w.file? p = some l ↔
      w.canonicalize p = .ok l ∧ ∃ content, w.tree.shallow.lookup? l = some (.file content) := by
  rw [file?]
  cases led : w.canonicalize p with
  | error fault => simp
  | ok l' =>
      simp only [Except.ok.injEq]
      constructor
      · intro found
        split at found
        · rename_i content there
          obtain rfl := Option.some.inj found
          exact ⟨rfl, content, there⟩
        · cases found
      · rintro ⟨rfl, content, there⟩
        simp only [there]

end Workspace

end IncludeAtlas
