import IncludeAtlas.Proofs.FileTree.Canonical

/-!
# Following a path

Where a path leads, segment by segment, as a judgment of its own.  It has a rule for each kind of
segment and of entry, and it counts the links that are followed; it knows no faults, no bound and
no order of tests.

## Main Definitions

* `FileTree.Leads`: segments lead from a directory to a location, over so many links
* `FileTree.Sustains`: a tree has the directories, links and files of another one
* `Workspace.Reaches`: a path leads to a file

## Main Results

* `FileTree.resolve_eq_ok_iff`: resolution finds where segments lead, if that takes no more links
  than it may follow
* `FileTree.Leads.unique`: segments lead to one location
* `FileTree.Leads.append`, `FileTree.Leads.before`: ways are put together, and cut before a segment
* `FileTree.Sustains.leads`: what leads somewhere goes on leading there
* `Workspace.file?_eq_some_iff_reaches`: the file of a path is the one that the path reaches

## Design notes

An entry stands under a proper name, so the rules that look at an entry need not say that its
segment is none of those with a meaning of their own.  A link is followed from the directory that
it was met in, which after other links is not the one that the spelling names; `..` goes up from
there as well.
-/

namespace IncludeAtlas

/-! ## Segments -/

namespace FileTree

/-- Some segments lead from a directory to a location, and so many links are followed on the
way. -/
inductive Leads (t : FileTree) : Nat → Location → List Bytes → Location → Prop
  | here {cur : Location} : Leads t 0 cur [] cur
  | stay {n : Nat} {cur l : Location} {s : Bytes} {rest : List Bytes} :
      s = [] ∨ s = dot → Leads t n cur rest l → Leads t n cur (s :: rest) l
  | up {n : Nat} {cur l : Location} {rest : List Bytes} :
      Leads t n cur.dropLast rest l → Leads t n cur (dotDot :: rest) l
  | enter {n : Nat} {cur l : Location} {s : Bytes} {rest : List Bytes} :
      t.lookup? (cur ++ [s]) = some .directory →
      Leads t n (cur ++ [s]) rest l → Leads t n cur (s :: rest) l
  | arrive {cur : Location} {s content : Bytes} :
      t.lookup? (cur ++ [s]) = some (.file content) → Leads t 0 cur [s] (cur ++ [s])
  | follow {n : Nat} {cur l : Location} {s : Bytes} {rest : List Bytes} {target : Path} :
      t.lookup? (cur ++ [s]) = some (.link target) →
      Leads t n (target.startFrom cur) (target.segments ++ rest) l →
      Leads t (n + 1) cur (s :: rest) l

variable {t : FileTree} {links n n' : Nat} {cur l l' : Location} {segments : List Bytes}

/-- **Resolution finds where segments lead**, if that takes no more links than it may follow. -/
theorem resolve_eq_ok_iff :
    t.resolve links cur segments = .ok l ↔ ∃ n ≤ links, t.Leads n cur segments l := by
  constructor
  · intro h
    fun_induction FileTree.resolve t links cur segments with
    | case1 => exact ⟨0, Nat.zero_le _, Except.ok.inj h ▸ .here⟩
    | case2 _ _ _ _ stays ih =>
        obtain ⟨n, le, leads⟩ := ih h
        exact ⟨n, le, .stay stays leads⟩
    | case3 _ _ _ _ ih =>
        obtain ⟨n, le, leads⟩ := ih h
        exact ⟨n, le, .up leads⟩
    | case4 => cases h
    | case5 => cases h
    | case6 _ _ _ _ _ _ _ directory ih =>
        obtain ⟨n, le, leads⟩ := ih h
        exact ⟨n, le, .enter directory leads⟩
    | case7 _ _ _ _ _ _ _ file => exact ⟨0, Nat.zero_le _, Except.ok.inj h ▸ .arrive file⟩
    | case8 => cases h
    | case9 => cases h
    | case10 _ _ _ _ _ _ _ link _ ih =>
        obtain ⟨n, le, leads⟩ := ih h
        exact ⟨n + 1, Nat.succ_le_succ le, .follow link leads⟩
  · rintro ⟨n, le, leads⟩
    induction leads generalizing links with
    | here => rw [FileTree.resolve]
    | stay stays _ ih =>
        rw [FileTree.resolve, if_pos stays]
        exact ih le
    | up _ ih =>
        rw [FileTree.resolve, if_neg (by decide), if_pos rfl]
        exact ih le
    | enter directory _ ih =>
        rw [resolve_cons (isName_of_lookup? directory), directory]
        exact ih le
    | arrive file =>
        rw [resolve_cons (isName_of_lookup? file), file]
        exact if_pos rfl
    | follow link _ ih =>
        -- one of the links that may be followed is this one
        obtain ⟨m, rfl⟩ := Nat.exists_eq_add_of_lt le
        rw [resolve_cons (isName_of_lookup? link), link]
        exact ih (by omega)

/-- Segments lead to one location. -/
theorem Leads.unique (h : t.Leads n cur segments l) (h' : t.Leads n' cur segments l') :
    l = l' := by
  have found : t.resolve (max n n') cur segments = .ok l :=
    resolve_eq_ok_iff.2 ⟨n, Nat.le_max_left n n', h⟩
  have found' : t.resolve (max n n') cur segments = .ok l' :=
    resolve_eq_ok_iff.2 ⟨n', Nat.le_max_right n n', h'⟩
  exact Except.ok.inj (found.symm.trans found')

/-! ### Pieces of the way -/

/-- A path starts in a directory. -/
theorem lookup?_startFrom (start : t.lookup? cur = some .directory) (p : Path) :
    t.lookup? (p.startFrom cur) = some .directory := by
  unfold Path.startFrom
  split
  · exact t.lookup?_root
  · exact start

/-- **Where an empty segment could follow, any segments can.**  They are followed from the directory
that the way has led to. -/
theorem Leads.append {front rest : List Bytes} (h : t.Leads n cur (front ++ [[]]) l')
    (more : t.Leads n' l' rest l) : t.Leads (n + n') cur (front ++ rest) l := by
  generalize way : front ++ [[]] = segments at h
  induction h generalizing front with
  | here => exact absurd way (by simp)
  | stay stays leads ih =>
      cases front with
      | nil =>
          obtain ⟨rfl, rfl⟩ := List.cons.inj way
          cases leads
          rw [Nat.zero_add]
          exact more
      | cons s front =>
          obtain ⟨rfl, tail⟩ := List.cons.inj way
          exact .stay stays (ih more tail)
  | up _ ih =>
      cases front with
      | nil => cases way
      | cons s front =>
          obtain ⟨rfl, tail⟩ := List.cons.inj way
          exact .up (ih more tail)
  | enter directory _ ih =>
      cases front with
      | nil =>
          obtain ⟨rfl, -⟩ := List.cons.inj way
          exact absurd rfl (isName_of_lookup? directory).1
      | cons s front =>
          obtain ⟨rfl, tail⟩ := List.cons.inj way
          exact .enter directory (ih more tail)
  | arrive file =>
      cases front with
      | nil =>
          obtain ⟨rfl, -⟩ := List.cons.inj way
          exact absurd rfl (isName_of_lookup? file).1
      | cons s front => exact absurd (List.cons.inj way).2 (by simp)
  | follow link _ ih =>
      cases front with
      | nil =>
          obtain ⟨rfl, -⟩ := List.cons.inj way
          exact absurd rfl (isName_of_lookup? link).1
      | cons s front =>
          rw [List.cons_append] at way
          obtain ⟨rfl, rfl⟩ := List.cons.inj way
          have on := ih more (List.append_assoc _ front [[]])
          rw [List.append_assoc] at on
          rw [Nat.add_right_comm]
          exact .follow link on

/-- **What stands before a segment with a meaning leads to a directory.** -/
theorem Leads.before {front : List Bytes} {s : Bytes} (start : t.lookup? cur = some .directory)
    (meaning : ¬ (s = [] ∨ s = dot)) (h : t.Leads n cur (front ++ [s]) l) :
    ∃ m ≤ n, ∃ d, t.Leads m cur (front ++ [[]]) d ∧ t.lookup? d = some .directory := by
  generalize way : front ++ [s] = segments at h
  induction h generalizing front with
  | here => exact absurd way (by simp)
  | stay stays _ ih =>
      cases front with
      | nil =>
          obtain ⟨rfl, -⟩ := List.cons.inj way
          exact absurd stays meaning
      | cons r front =>
          obtain ⟨rfl, tail⟩ := List.cons.inj way
          obtain ⟨m, le, d, leads, directory⟩ := ih start tail
          exact ⟨m, le, d, .stay stays leads, directory⟩
  | up _ ih =>
      cases front with
      | nil => exact ⟨0, Nat.zero_le _, _, .stay (.inl rfl) .here, start⟩
      | cons r front =>
          obtain ⟨rfl, tail⟩ := List.cons.inj way
          obtain ⟨m, le, d, leads, directory⟩ := ih (lookup?_dropLast start) tail
          exact ⟨m, le, d, .up leads, directory⟩
  | enter entered _ ih =>
      cases front with
      | nil => exact ⟨0, Nat.zero_le _, _, .stay (.inl rfl) .here, start⟩
      | cons r front =>
          obtain ⟨rfl, tail⟩ := List.cons.inj way
          obtain ⟨m, le, d, leads, directory⟩ := ih entered tail
          exact ⟨m, le, d, .enter entered leads, directory⟩
  | arrive =>
      cases front with
      | nil => exact ⟨0, Nat.zero_le _, _, .stay (.inl rfl) .here, start⟩
      | cons r front => exact absurd (List.cons.inj way).2 (by simp)
  | @follow _ cur _ _ _ target link _ ih =>
      cases front with
      | nil => exact ⟨0, Nat.zero_le _, _, .stay (.inl rfl) .here, start⟩
      | cons r front =>
          rw [List.cons_append] at way
          obtain ⟨rfl, rfl⟩ := List.cons.inj way
          obtain ⟨m, le, d, leads, directory⟩ :=
            ih (lookup?_startFrom start target) (List.append_assoc _ front [s])
          rw [List.append_assoc] at leads
          exact ⟨m + 1, Nat.succ_le_succ le, d, .follow link leads, directory⟩

/-- Empty segments stay where they are. -/
theorem leads_replicate (t : FileTree) (cur : Location) (k : Nat) :
    t.Leads 0 cur (List.replicate k []) cur := by
  induction k with
  | zero => exact .here
  | succ k ih => exact .stay (.inl rfl) ih

/-! ### Trees of one shape -/

/-- Directories and links stay as they are, and files stay files. -/
structure Sustains (t t' : FileTree) : Prop where
  directory : ∀ l, t.lookup? l = some .directory → t'.lookup? l = some .directory
  link : ∀ l target, t.lookup? l = some (.link target) → t'.lookup? l = some (.link target)
  file : ∀ l content, t.lookup? l = some (.file content) →
    ∃ content', t'.lookup? l = some (.file content')

/-- **Every way is kept** where directories, links and files are. -/
theorem Sustains.leads {t' : FileTree} (h : t.Sustains t') (leads : t.Leads n cur segments l) :
    t'.Leads n cur segments l := by
  induction leads with
  | here => exact .here
  | stay stays _ ih => exact .stay stays ih
  | up _ ih => exact .up ih
  | enter directory _ ih => exact .enter (h.directory _ directory) ih
  | arrive file =>
      obtain ⟨content', file'⟩ := h.file _ _ file
      exact .arrive file'
  | follow link _ ih => exact .follow (h.link _ _ link) ih

/-- A tree has what its shallow part has. -/
theorem sustains_shallow (t : FileTree) : t.shallow.Sustains t where
  directory _ := lookup?_of_shallow
  link _ _ := lookup?_of_shallow
  file _ content file := ⟨content, lookup?_of_shallow file⟩

/-- What can be made canonical leads there as well when it is looked up as it is spelled. -/
theorem resolve_of_canonical (h : t.canonical links cur segments = .ok l) :
    t.resolve links cur segments = .ok l := by
  obtain ⟨n, le, leads⟩ := resolve_eq_ok_iff.1 (canonical_eq_ok_iff.1 h)
  exact resolve_eq_ok_iff.2 ⟨n, le, t.sustains_shallow.leads leads⟩

end FileTree

/-! ## Paths -/

namespace Workspace

variable {w : Workspace} {p : Path} {l : Location}

/-- A path is made canonical if it can be spelled and leads somewhere over entries that can be
looked up under their own paths. -/
theorem canonicalize_eq_ok_iff :
    w.canonicalize p = .ok l ↔ 0 ∉ p.bytes ∧ p.bytes ≠ [] ∧
      ∃ n ≤ linkBound, w.tree.shallow.Leads n (p.startFrom w.directory) p.segments l := by
  rw [canonicalize, spellingFault?, ← FileTree.resolve_eq_ok_iff,
    ← FileTree.canonical_eq_ok_iff]
  by_cases nul : 0 ∈ p.bytes
  · simp [nul]
  · by_cases empty : p.bytes = []
    · simp [empty]
    · by_cases long : pathBound ≤ p.bytes.length <;> simp [nul, empty, long]

theorem spellingFault?_eq_none_iff :
    spellingFault? p = none ↔ 0 ∉ p.bytes ∧ p.bytes ≠ [] ∧ p.bytes.length < pathBound := by
  rw [spellingFault?]
  split_ifs with nul empty long
  · simp [nul]
  · simp [empty]
  · simp [Nat.not_lt.2 long]
  · simp [nul, empty, Nat.lt_of_not_le long]

/-- A path denotes where it leads, if it can be spelled. -/
theorem locate_eq_ok_iff_leads :
    w.locate p = .ok l ↔ spellingFault? p = none ∧
      ∃ n ≤ linkBound, w.tree.Leads n (p.startFrom w.directory) p.segments l := by
  rw [locate, ← FileTree.resolve_eq_ok_iff]
  cases spellingFault? p <;> simp

/-- A path goes on denoting what it denotes where directories, links and files are kept. -/
theorem locate_of_sustains {w' : Workspace} (h : w.tree.Sustains w'.tree)
    (directory : w'.directory = w.directory) (led : w.locate p = .ok l) : w'.locate p = .ok l := by
  obtain ⟨spelled, n, le, leads⟩ := locate_eq_ok_iff_leads.1 led
  refine locate_eq_ok_iff_leads.2 ⟨spelled, n, le, ?_⟩
  rw [directory]
  exact h.leads leads

/-- A path leads to a file, over entries that can be looked up under their own paths. -/
structure Reaches (w : Workspace) (p : Path) (l : Location) : Prop where
  spelled : 0 ∉ p.bytes ∧ p.bytes ≠ []
  led : ∃ n ≤ linkBound, w.tree.shallow.Leads n (p.startFrom w.directory) p.segments l
  file : ∃ content, w.tree.shallow.lookup? l = some (.file content)

/-- **The file of a path is the one that the path reaches.** -/
theorem file?_eq_some_iff_reaches : w.file? p = some l ↔ w.Reaches p l := by
  rw [file?_eq_some_iff, canonicalize_eq_ok_iff]
  constructor
  · rintro ⟨⟨noNul, notEmpty, led⟩, file⟩
    exact ⟨⟨noNul, notEmpty⟩, led, file⟩
  · rintro ⟨⟨noNul, notEmpty⟩, led, file⟩
    exact ⟨⟨noNul, notEmpty, led⟩, file⟩

theorem file?_eq_none_iff : w.file? p = none ↔ ∀ l, ¬ w.Reaches p l := by
  simp only [Option.eq_none_iff_forall_ne_some, ne_eq, file?_eq_some_iff_reaches]

end Workspace

end IncludeAtlas
