import IncludeAtlas.Path.Basic
import IncludeAtlas.Ordered

/-!
# File trees

A file tree in memory: directories, files with their content, and symbolic links, each
at its location.

## Main Definitions

* `Entry`: what stands at a location
* `FileTree`: all entries, in the order of their locations
* `FileTree.lookup?`: the entry at a location
* `FileTree.insert?`, `FileTree.remove`: changes
* `Location.Short`: the path of a location is short enough to be opened
* `FileTree.shallow`, `FileTree.listed`: what has such a path, and what stands in directories
  that have one

## Design notes

The root is always a directory and has no entry of its own.  Locations are ordered as
lists of names, so a directory comes right before everything in it and the names in a
directory ascend by their bytes: the order of the entries is the order in which the tree
is walked depth first.

The type carries what every change keeps: locations ascend, every name is one that a
directory can hold, and every entry stands in a directory of the tree.

A tree may be deeper than any path is long.  What stands that far down is reached by short
spellings only, through links or from a directory near by, and not under its own path.
-/

namespace IncludeAtlas

/-- What stands at a location. -/
inductive Entry where
  | directory
  | file (content : Bytes)
  | link (target : Path)
  deriving DecidableEq, Repr

/-- The greatest length of a name. -/
def nameBound : Nat := 255

/-- The length from which on a spelling is too long. -/
def pathBound : Nat := 4096

/-- The path of a location is short enough to be opened. -/
def Location.Short (l : Location) : Prop :=
  l.toPath.bytes.length < pathBound

instance (l : Location) : Decidable l.Short :=
  inferInstanceAs (Decidable (_ < _))

namespace Location

variable {l p : Location}

theorem length_bytes_toPath_le (above : p <+: l) :
    p.toPath.bytes.length ≤ l.toPath.bytes.length := by
  obtain ⟨names, rfl⟩ := above
  by_cases top : p = []
  · subst top
    cases names <;> simp [toPath]
  · have below : p ++ names ≠ [] := by simp [top]
    rw [toPath, toPath, if_neg top, if_neg below]
    simp

/-- Everything above a location with a short path has a short path. -/
theorem Short.of_prefix (h : l.Short) (above : p <+: l) : p.Short :=
  Nat.lt_of_le_of_lt (length_bytes_toPath_le above) h

theorem Short.dropLast (h : l.Short) : Location.Short l.dropLast :=
  h.of_prefix (List.dropLast_prefix l)

end Location

/-- Whether a directory can hold an entry of this name. -/
def IsName (n : Bytes) : Prop :=
  n ≠ [] ∧ n ≠ dot ∧ n ≠ dotDot ∧ slash ∉ n ∧ 0 ∉ n ∧ n.length ≤ nameBound

instance (n : Bytes) : Decidable (IsName n) :=
  inferInstanceAs (Decidable (_ ∧ _))

/-- The entries of a tree by ascending locations. -/
structure FileTree where
  entries : List (Location × Entry)
  ascending : Ordered.Ascending Prod.fst entries
  named : ∀ e ∈ entries, e.1 ≠ [] ∧ ∀ n ∈ e.1, IsName n
  rooted : ∀ e ∈ entries, e.1.dropLast = [] ∨ (e.1.dropLast, Entry.directory) ∈ entries

namespace FileTree

/-- The tree that holds nothing but the root. -/
def empty : FileTree :=
  ⟨[], List.Pairwise.nil, by simp, by simp⟩

/-- The entry at a location. -/
def lookup? (t : FileTree) (l : Location) : Option Entry :=
  if l = [] then some .directory else (t.entries.find? fun e => e.1 = l).map Prod.snd

theorem lookup?_root (t : FileTree) : t.lookup? [] = some .directory := rfl

/-- Two entries at one location are one entry. -/
theorem eq_of_mem {t : FileTree} {l : Location} {a b : Entry}
    (ha : (l, a) ∈ t.entries) (hb : (l, b) ∈ t.entries) : a = b := by
  obtain ⟨i, hi, ea⟩ := List.getElem_of_mem ha
  obtain ⟨j, hj, eb⟩ := List.getElem_of_mem hb
  have asc := List.pairwise_iff_getElem.1 t.ascending
  have key : ∀ k (hk : k < t.entries.length) c, t.entries[k] = (l, c) → (t.entries[k]).1 = l := by
    intro k hk c e
    rw [e]
  rcases Nat.lt_trichotomy i j with h | h | h
  · have := asc i j hi hj h
    rw [key i hi a ea, key j hj b eb] at this
    exact absurd this (List.lt_irrefl l)
  · subst h
    simpa [ea] using eb
  · have := asc j i hj hi h
    rw [key i hi a ea, key j hj b eb] at this
    exact absurd this (List.lt_irrefl l)

/-- Below the root, lookup reads the entries. -/
theorem lookup?_eq_some_iff {t : FileTree} {l : Location} {e : Entry} (h : l ≠ []) :
    t.lookup? l = some e ↔ (l, e) ∈ t.entries := by
  simp only [lookup?, h, if_false, Option.map_eq_some_iff]
  constructor
  · rintro ⟨⟨l', e'⟩, hf, rfl⟩
    have := List.find?_some hf
    simp only [decide_eq_true_eq] at this
    subst this
    exact List.mem_of_find?_eq_some hf
  · intro hm
    cases hf : t.entries.find? fun e => e.1 = l with
    | none =>
      have := List.find?_eq_none.1 hf _ hm
      simp at this
    | some x =>
      have hx := List.find?_some hf
      simp only [decide_eq_true_eq] at hx
      subst hx
      exact ⟨x, rfl, eq_of_mem (List.mem_of_find?_eq_some hf) hm⟩

/-- Whether an entry can be put at a location: in a directory, under a proper name, and not
in place of a directory. -/
def Admits (t : FileTree) (l : Location) (e : Entry) : Prop :=
  l ≠ [] ∧ (∀ n ∈ l, IsName n) ∧ t.lookup? l.dropLast = some .directory ∧
    (t.lookup? l = some .directory → e = .directory)

instance (t : FileTree) (l : Location) (e : Entry) : Decidable (t.Admits l e) :=
  inferInstanceAs (Decidable (_ ∧ _))

/-- The entries with a new one, in place of the old one at its location. -/
def place (entries : List (Location × Entry)) (l : Location) (e : Entry) :
    List (Location × Entry) :=
  Ordered.insert Prod.fst (l, e) (entries.filter fun x => x.1 ≠ l)

theorem mem_place {entries : List (Location × Entry)} {l : Location} {e : Entry}
    {x : Location × Entry} (h : x ∈ place entries l e) :
    x = (l, e) ∨ x ∈ entries ∧ x.1 ≠ l := by
  rcases Ordered.mem_insert_imp h with rfl | h
  · exact .inl rfl
  · simpa using Or.inr (List.mem_filter.1 h)

theorem mem_place_of_ne {entries : List (Location × Entry)} {l : Location} {e : Entry}
    {x : Location × Entry} (h : x ∈ entries) (hx : x.1 ≠ l) : x ∈ place entries l e :=
  Ordered.mem_insert_of_mem (List.mem_filter.2 ⟨h, by simpa using hx⟩)

theorem mem_insert_self {l : Location} {e : Entry} {ys : List (Location × Entry)}
    (h : ∀ y ∈ ys, y.1 ≠ l) : (l, e) ∈ Ordered.insert Prod.fst (l, e) ys := by
  obtain ⟨z, hz, eq⟩ := Ordered.exists_mem_insert Prod.fst (l, e) ys
  rcases Ordered.mem_insert_imp hz with rfl | old
  · exact hz
  · exact absurd eq (h z old)

theorem mem_place_self {entries : List (Location × Entry)} {l : Location} {e : Entry} :
    (l, e) ∈ place entries l e :=
  mem_insert_self fun y hy => by simpa using (List.mem_filter.1 hy).2

/-- A parent directory survives a placement. -/
theorem directory_mem_place {t : FileTree} {l p : Location} {e : Entry} (h : t.Admits l e)
    (hp : (p, Entry.directory) ∈ t.entries) : (p, Entry.directory) ∈ place t.entries l e := by
  by_cases hpl : p = l
  · subst hpl
    have : e = .directory := h.2.2.2 ((lookup?_eq_some_iff h.1).2 hp)
    subst this
    exact mem_place_self
  · exact mem_place_of_ne hp hpl

/-- Puts an entry at a location, if the tree admits it there. -/
def insert? (t : FileTree) (l : Location) (e : Entry) : Option FileTree :=
  if h : t.Admits l e then
    some {
      entries := place t.entries l e
      ascending := Ordered.ascending_insert (List.Pairwise.filter _ t.ascending)
      named := by
        intro x hx
        rcases mem_place hx with rfl | ⟨hx, _⟩
        · exact ⟨h.1, h.2.1⟩
        · exact t.named x hx
      rooted := by
        intro x hx
        rcases mem_place hx with rfl | ⟨hx, _⟩
        · by_cases hp : l.dropLast = []
          · exact .inl hp
          · exact .inr (directory_mem_place h ((lookup?_eq_some_iff hp).1 h.2.2.1))
        · rcases t.rooted x hx with hp | hp
          · exact .inl hp
          · exact .inr (directory_mem_place h hp) }
  else none

/-- The part of a tree at some locations, which contain with each one the one above it. -/
def restrict (t : FileTree) (keep : Location → Prop) [DecidablePred keep]
    (up : ∀ l, keep l → keep l.dropLast) : FileTree where
  entries := t.entries.filter fun x => keep x.1
  ascending := List.Pairwise.filter _ t.ascending
  named := fun x hx => t.named x (List.mem_filter.1 hx).1
  rooted := by
    intro x hx
    obtain ⟨there, kept⟩ := List.mem_filter.1 hx
    rcases t.rooted x there with top | below
    · exact .inl top
    · exact .inr (List.mem_filter.2 ⟨below, decide_eq_true (up _ (of_decide_eq_true kept))⟩)

/-- Takes away an entry and everything below it. -/
def remove (t : FileTree) (l : Location) : FileTree :=
  t.restrict (fun x => ¬ l <+: x) fun _ apart within =>
    apart (within.trans (List.dropLast_prefix _))

/-- The part of a tree that can be looked up and opened under its own paths. -/
def shallow (t : FileTree) : FileTree :=
  t.restrict Location.Short fun _ short => short.dropLast

/-- The part of a tree that is seen by listing directories under their own paths. -/
def listed (t : FileTree) : FileTree :=
  t.restrict (fun l => Location.Short l.dropLast) fun _ short => short.dropLast

section Part

variable {t : FileTree} {l : Location} {e : Entry} {keep : Location → Prop} [DecidablePred keep]
  {up : ∀ l, keep l → keep l.dropLast}

theorem mem_restrict_iff {x : Location × Entry} :
    x ∈ (t.restrict keep up).entries ↔ x ∈ t.entries ∧ keep x.1 := by
  simp [restrict]

/-- A part of a tree has what stands at its own locations. -/
theorem lookup?_restrict_eq_some_iff :
    (t.restrict keep up).lookup? l = some e ↔ t.lookup? l = some e ∧ (l = [] ∨ keep l) := by
  by_cases top : l = []
  · subst top
    simp [lookup?_root]
  · simp [lookup?_eq_some_iff top, mem_restrict_iff, top]

theorem lookup?_shallow_eq_some_iff :
    t.shallow.lookup? l = some e ↔ t.lookup? l = some e ∧ l.Short := by
  rw [shallow, lookup?_restrict_eq_some_iff, or_iff_right_of_imp]
  rintro rfl
  decide

/-- What stands in the shallow part of a tree stands in the tree. -/
theorem lookup?_of_shallow (h : t.shallow.lookup? l = some e) : t.lookup? l = some e :=
  (lookup?_shallow_eq_some_iff.1 h).1

theorem lookup?_shallow (t : FileTree) (l : Location) :
    t.shallow.lookup? l = if l.Short then t.lookup? l else none := by
  ext e
  rw [lookup?_shallow_eq_some_iff]
  by_cases short : l.Short <;> simp [short]

end Part

/-- The locations below another one, in the order of the tree. -/
def below (t : FileTree) (l : Location) : List (Location × Entry) :=
  t.entries.filter fun x => l.isPrefixOf x.1 && x.1 ≠ l

end FileTree

end IncludeAtlas
