import IncludeAtlas.Proofs.FileTree.Making

/-!
# Writing and reading back

What a file holds after it has been written, and what becomes of the rest of the tree.

## Main Definitions

* `Workspace.withParents`: what becomes of the directories that a path needs
* `Workspace.Receives`: what a write makes of a workspace
* `Workspace.Overwrites`: what it leaves under a path
* `Workspace.Writable`: a path that can be written under

## Main Results

* `FileTree.resolve_of_target`: a file that is made is found on the way that it was made on
* `Workspace.growsBy_withParents`: only directories above a path are made for it
* `Workspace.isDirectory_of_mem_above`: and then all paths above it lead to directories
* `Workspace.exists_receives`: a write makes one file and the directories above it
* `Workspace.Writable.exists_overwrites`: where one content can be written, so can any other, and
  then it is read from there
* `Workspace.writable_toPath`: every file of a tree can be written under its path, if that can
  be opened

## What is load-bearing

The way to a file that is written leads through directories and links only, and ends at a file
or at nothing.  So the file does not stand in its own way: once it is there, the same way leads
to it.
-/

namespace IncludeAtlas

/-! ## Trees -/

namespace FileTree

variable {t t' : FileTree} {l cur : Location} {e : Entry} {content content' : Bytes}
  {links : Nat} {segments : List Bytes}

/-- Whether a file can be put somewhere does not depend on what it holds. -/
theorem exists_insert?_file (h : t.insert? l (.file content) = some t') (content' : Bytes) :
    ∃ t'', t.insert? l (.file content') = some t'' := by
  obtain ⟨⟨below, named, parent, noDirectory⟩, -⟩ := insert?_eq_some_iff.1 h
  have admits : t.Admits l (.file content') := by
    refine ⟨below, named, parent, fun directory => ?_⟩
    cases noDirectory directory
  exact ⟨_, dif_pos admits⟩

/-- A file is written in place of a file or of nothing. -/
theorem lookup?_of_target (h : t.target links cur segments = .ok l) :
    t.lookup? l = none ∨ ∃ content, t.lookup? l = some (.file content) := by
  fun_induction FileTree.target t links cur segments with
  | case1 => cases h
  | case2 _ _ _ _ _ ih => exact ih h
  | case3 _ _ _ _ ih => exact ih h
  | case4 => cases h
  | case5 => cases h
  | case6 _ _ _ _ _ _ nothing =>
      rw [← Except.ok.inj h]
      exact .inl nothing
  | case7 => cases h
  | case8 _ _ _ _ _ _ _ _ _ ih => exact ih h
  | case9 _ _ _ _ _ _ content file =>
      rw [← Except.ok.inj h]
      exact .inr ⟨content, file⟩
  | case10 => cases h
  | case11 => cases h
  | case12 _ _ _ _ _ _ _ _ _ _ ih => exact ih h

/-- A file in place of a file or of nothing is in the way of nothing else. -/
theorem sustains_insert?_file (placed : t.insert? l (.file content) = some t')
    (free : t.lookup? l = none ∨ ∃ content, t.lookup? l = some (.file content)) :
    t.Sustains t' := by
  have found := lookup?_insert? placed
  have elsewhere : ∀ {l' e}, t.lookup? l' = some e → (∀ content, e ≠ .file content) → l' ≠ l := by
    rintro l' e there noFile rfl
    rcases free with nothing | ⟨content, file⟩
    · cases nothing.symm.trans there
    · exact noFile content (Option.some.inj (there.symm.trans file))
  refine ⟨fun l' there => ?_, fun l' _ there => ?_, fun l' old there => ?_⟩
  · rw [found, if_neg (elsewhere there fun _ => Entry.noConfusion), there]
  · rw [found, if_neg (elsewhere there fun _ => Entry.noConfusion), there]
  · rw [found]
    split
    · exact ⟨content, rfl⟩
    · exact ⟨old, there⟩

/-- **A file that is made is found on the way that it was made on.** -/
theorem resolve_of_target (h : t.target links cur segments = .ok l)
    (placed : t.insert? l (.file content) = some t') :
    t'.resolve links cur segments = .ok l := by
  have found := lookup?_insert? placed
  have here : t'.lookup? l = some (.file content) := by rw [found, if_pos rfl]
  -- what is on the way is neither a file nor missing, so it is not what was made
  have sustains := sustains_insert?_file placed (lookup?_of_target h)
  fun_induction FileTree.target t links cur segments with
  | case1 => cases h
  | case2 _ _ _ _ stays ih =>
      rw [FileTree.resolve, if_pos stays]
      exact ih h
  | case3 _ _ _ moves ih =>
      rw [FileTree.resolve, if_neg moves, if_pos rfl]
      exact ih h
  | case4 => cases h
  | case5 => cases h
  | case6 _ cur s moves ne short _ _ =>
      obtain rfl := Except.ok.inj h
      rw [FileTree.resolve, if_neg moves, if_neg ne, if_neg short, here]
      exact if_pos rfl
  | case7 => cases h
  | case8 _ cur s rest moves ne _ short directory ih =>
      have there := sustains.directory _ directory
      rw [FileTree.resolve, if_neg moves, if_neg ne, if_neg short, there]
      exact ih h
  | case9 _ cur s moves ne short _ _ _ =>
      obtain rfl := Except.ok.inj h
      rw [FileTree.resolve, if_neg moves, if_neg ne, if_neg short, here]
      exact if_pos rfl
  | case10 => cases h
  | case11 => cases h
  | case12 cur s rest moves ne _ short target link n ih =>
      have there := sustains.link _ _ link
      rw [FileTree.resolve, if_neg moves, if_neg ne, if_neg short, there]
      exact ih h

/-! ### Names -/

/-- The names on the way to a file are those that it is written under. -/
theorem target_names {names : List Name} (ne : names ≠ [])
    (h : t.lookup? (cur ++ names) = some (.file content)) :
    t.target links cur names = .ok (cur ++ names) := by
  induction names generalizing cur with
  | nil => exact absurd rfl ne
  | cons n names ih =>
      have step : cur ++ n :: names = (cur ++ [n]) ++ names := by simp
      have isName : ∀ m ∈ n :: names, IsName m :=
        fun m hm => Settled.isName (.inr ⟨content, h⟩) (List.mem_append_right cur hm)
      obtain ⟨notEmpty, notDot, notDotDot, -, -, short⟩ := isName n List.mem_cons_self
      have goesOn : ¬ (names ≠ [] ∧ ∀ m ∈ names, m = []) := by
        rintro ⟨more, empty⟩
        obtain ⟨m, hm⟩ := List.exists_mem_of_ne_nil names more
        exact (isName m (List.mem_cons_of_mem n hm)).1 (empty m hm)
      rw [FileTree.target, if_neg (not_or.2 ⟨notEmpty, notDot⟩), if_neg notDotDot, if_neg goesOn,
        if_neg (Nat.not_lt.2 short)]
      by_cases last : names = []
      · subst last
        simp only [h, if_true]
      · rw [Settled.lookup?_step (.inr ⟨content, h⟩) last, step]
        exact ih last (by rwa [step] at h)

/-- A file can be put in place of a file. -/
theorem exists_insert?_of_file (h : t.lookup? l = some (.file content)) (content' : Bytes) :
    ∃ t', t.insert? l (.file content') = some t' := by
  have below : l ≠ [] := by
    rintro rfl
    cases t.lookup?_root.symm.trans h
  have mem := (lookup?_eq_some_iff below).1 h
  have admits : t.Admits l (.file content') := by
    refine ⟨below, (t.named _ mem).2, lookup?_dropLast_of_mem mem, fun directory => ?_⟩
    cases h.symm.trans directory
  exact ⟨_, dif_pos admits⟩

end FileTree

/-! ## Paths of locations -/

namespace Location

variable {l : Location}

theorem intercalate_cons (s : Bytes) (ss : List Bytes) :
    [slash].intercalate (s :: ss) = s ++ ss.flatMap fun r => slash :: r := by
  induction ss generalizing s with
  | nil => simp
  | cons r ss ih => simp [ih]

/-- The plainest spelling of what the path of a location means is that path. -/
theorem ofComponents_toPath (h : ∀ m ∈ l, IsName m) :
    Path.ofComponents l.toPath.components = l.toPath := by
  have ordinary : ∀ c ∈ l.map Component.name, c.Ordinary :=
    List.forall_mem_map.2 fun n hn => Component.ordinary_name (h n hn)
  have spelled : (l.map Component.name).map Component.bytes = l := by
    rw [List.map_map]
    exact List.map_id l
  rw [components_toPath h, Path.ofComponents_root ordinary, spelled]
  cases l with
  | nil => rfl
  | cons n names =>
      rw [toPath_of_ne_nil (List.cons_ne_nil n names), intercalate_cons]
      rfl

end Location

/-! ## Workspaces -/

namespace Workspace

variable {w w' : Workspace} {p : Path} {l : Location} {content content' : Bytes}
  {fault : IoFault}

/-! ## Writing -/

theorem write_eq_ok_iff :
    w.write p content = .ok w' ↔ spellingFault? p = none ∧ ∃ l tree,
      w.tree.target linkBound (p.startFrom w.directory) p.segments = .ok l ∧
      w.tree.insert? l (.file content) = some tree ∧ w' = { w with tree } := by
  rw [write]
  cases spellingFault? p with
  | some fault => simp
  | none =>
      cases led : w.tree.target linkBound (p.startFrom w.directory) p.segments with
      | error fault => simp [bind, Except.bind]
      | ok l => simp [bind, Except.bind, withEntry_eq_ok_iff]

/-- A write changes what a file holds at most, and so no way. -/
theorem sustains_of_write (h : w.write p content = .ok w') :
    w'.directory = w.directory ∧ w.tree.Sustains w'.tree := by
  obtain ⟨-, l, tree, led, placed, rfl⟩ := write_eq_ok_iff.1 h
  exact ⟨rfl, FileTree.sustains_insert?_file placed (FileTree.lookup?_of_target led)⟩

/-- Where one content can be written, so can any other. -/
theorem exists_write (h : w.write p content = .ok w') (content' : Bytes) :
    ∃ w'', w.write p content' = .ok w'' := by
  obtain ⟨spelled, l, tree, led, placed, -⟩ := write_eq_ok_iff.1 h
  obtain ⟨tree', placed'⟩ := FileTree.exists_insert?_file placed content'
  exact ⟨_, write_eq_ok_iff.2 ⟨spelled, l, tree', led, placed', rfl⟩⟩

/-- What a write under a path leaves: the content is read under the path, and every other entry
is what it was. -/
structure Overwrites (w w' : Workspace) (p : Path) (content : Bytes) : Prop where
  read : w'.read p = .ok content
  directory : w'.directory = w.directory
  others : ∀ l e, w.tree.lookup? l = some e → w'.tree.lookup? l = some e ∨ w'.locate p = .ok l

/-- A path can be written under, with the directories that it needs. -/
def Writable (w : Workspace) (p : Path) : Prop :=
  ∃ content, (w.writeWithParents p content).2 = none

/-! ### The directories above a path -/

/-- What becomes of the directories that a path needs. -/
def withParents (w : Workspace) (p : Path) : Workspace × Option IoFault :=
  match p.parent? with
  | some d =>
    if d.bytes = [] then (w, none)
    else if pathBound ≤ (spelledParent p).bytes.length then (w, some .nameTooLong)
    else w.makeDirectories d
  | none => (w, none)

/-- **What is made for a path**: nothing if nothing stands above it or if its directory is spelled
too long, and otherwise the row of its components without the last one. -/
theorem withParents_cases (w : Workspace) (p : Path) :
    (w.withParents p = (w, none) ∧ p.above = ∅) ∨
      w.withParents p = (w, some .nameTooLong) ∨
      (p.components.dropLast ≠ [] ∧
        w.withParents p = w.makeAll p.components.dropLast.reverse) := by
  have nothing : p.components.dropLast = [] → p.above = ∅ := fun none => by
    rw [Path.above, none, Path.upTo_nil]
  unfold withParents
  rcases p.parent?_cases with ⟨top, none⟩ | parent
  · rw [top]
    exact .inl ⟨rfl, nothing none⟩
  · have proper := p.proper_components.of_isPrefix (List.dropLast_prefix _)
    rw [parent]
    simp only
    split_ifs with blank long
    · refine .inl ⟨rfl, nothing ?_⟩
      by_contra more
      exact Path.bytes_ofComponents_ne_nil proper more blank
    · exact .inr (.inl rfl)
    · refine .inr (.inr ⟨fun none => blank ?_, ?_⟩)
      · rw [none]
        rfl
      · rw [makeDirectories, Path.components_ofComponents proper]

theorem writeWithParents_eq (w : Workspace) (p : Path) (content : Bytes) :
    w.writeWithParents p content =
      match (w.withParents p).2 with
      | some fault => ((w.withParents p).1, some fault)
      | none =>
        match (w.withParents p).1.write p content with
        | .ok w₂ => (w₂, none)
        | .error fault => ((w.withParents p).1, some fault) :=
  rfl

/-- A write succeeds if the directories can be made and then the file can. -/
theorem writeWithParents_eq_none_iff :
    w.writeWithParents p content = (w', none) ↔
      (w.withParents p).2 = none ∧ (w.withParents p).1.write p content = .ok w' := by
  rw [writeWithParents_eq]
  cases (w.withParents p).2 with
  | some fault => simp
  | none => cases (w.withParents p).1.write p content <;> simp

/-- A write that fails leaves the directories that were made for it. -/
theorem eq_of_writeWithParents (h : w.writeWithParents p content = (w', some fault)) :
    w' = (w.withParents p).1 := by
  rw [writeWithParents_eq] at h
  cases came : (w.withParents p).2 with
  | some fault' =>
      rw [came] at h
      exact (Prod.mk.inj h).1.symm
  | none =>
      cases written : (w.withParents p).1.write p content with
      | ok w₂ => simp [came, written] at h
      | error fault' =>
          rw [came, written] at h
          exact (Prod.mk.inj h).1.symm

/-- **Only directories above a path are made for it.** -/
theorem growsBy_withParents (w : Workspace) (p : Path) :
    GrowsBy p.above w (w.withParents p).1 := by
  rcases withParents_cases w p with ⟨eq, -⟩ | eq | ⟨-, eq⟩
  · rw [eq]
    exact .refl _ w
  · rw [eq]
    exact .refl _ w
  · have grows := w.growsBy_makeAll p.components.dropLast.reverse
    rw [List.reverse_reverse] at grows
    rw [eq]
    exact grows

/-- **Once the directories above a path have been made**, all paths above it lead to
directories. -/
theorem isDirectory_of_mem_above (start : w.tree.lookup? w.directory = some .directory)
    (done : (w.withParents p).2 = none) {q : Path} (mem : q ∈ p.above) :
    (w.withParents p).1.isDirectory q = true := by
  rcases withParents_cases w p with ⟨-, none⟩ | eq | ⟨more, eq⟩
  · rw [none] at mem
    cases mem
  · rw [eq] at done
    cases done
  · have grows := (w.growsBy_withParents p).toGrows
    have working := grows.kept _ _ start
    rw [← grows.directory] at working
    have proper := p.proper_components.of_isPrefix (List.dropLast_prefix p.components)
    refine isDirectory_of_mem_upTo working proper ?_ mem
    rw [eq] at done ⊢
    have there := isDirectory_makeAll (List.reverse_eq_nil_iff.not.2 more) done
    rwa [List.reverse_reverse] at there

/-! ### What a write makes of a workspace -/

/-- A workspace has received a file at a location, under a path.  All that is new besides are
directories above the path. -/
structure Receives (w w' : Workspace) (p : Path) (content : Bytes) (l : Location) : Prop where
  /-- The path denotes the location, and before it denoted that or nothing. -/
  located : w'.locate p = .ok l
  before : ∀ l', w.locate p = .ok l' → l' = l
  /-- The content is there, in place of another one or of nothing. -/
  file : w'.tree.lookup? l = some (.file content)
  place : w.tree.lookup? l = none ∨ ∃ old, w.tree.lookup? l = some (.file old)
  directory : w'.directory = w.directory
  /-- Whatever was elsewhere is what it was. -/
  kept : ∀ l' e, l' ≠ l → w.tree.lookup? l' = some e → w'.tree.lookup? l' = some e
  /-- Whatever is new elsewhere is a directory above the path. -/
  made : ∀ l' e, l' ≠ l → w.tree.lookup? l' = none → w'.tree.lookup? l' = some e →
    e = .directory ∧ ∃ q ∈ p.above, w'.locate q = .ok l'

/-- **A write makes one file and the directories above it**, and nothing else changes. -/
theorem exists_receives (h : w.writeWithParents p content = (w', none)) :
    ∃ l, w.Receives w' p content l := by
  obtain ⟨-, written⟩ := writeWithParents_eq_none_iff.1 h
  have grows := w.growsBy_withParents p
  generalize (w.withParents p).1 = w₁ at written grows
  obtain ⟨directory, sustains⟩ := sustains_of_write written
  have keeps : ∀ {q l'}, w₁.locate q = .ok l' → w'.locate q = .ok l' :=
    locate_of_sustains sustains directory
  obtain ⟨spelled, l, tree, led, placed, rfl⟩ := write_eq_ok_iff.1 written
  have found := FileTree.lookup?_insert? placed
  have located : Workspace.locate { w₁ with tree } p = .ok l := by
    rw [locate, spelled]
    exact FileTree.resolve_of_target led placed
  refine ⟨l, located, ?before, ?file, ?place, grows.directory, ?kept, ?made⟩
  case before =>
    intro l' denoted
    exact Except.ok.inj ((keeps (grows.locate denoted)).symm.trans located)
  case file => rw [found, if_pos rfl]
  case place =>
    cases old : w.tree.lookup? l with
    | none => exact .inl rfl
    | some e =>
        rcases FileTree.lookup?_of_target led with nothing | ⟨content', file⟩
        · cases nothing.symm.trans (grows.kept l e old)
        · exact .inr ⟨content', (grows.kept l e old).symm.trans file⟩
  case kept =>
    intro l' e elsewhere there
    rw [found, if_neg elsewhere, grows.kept l' e there]
  case made =>
    intro l' e elsewhere missing there
    rw [found, if_neg elsewhere] at there
    obtain ⟨directory, q, mem, denotes⟩ := grows.made l' e missing there
    exact ⟨directory, q, mem, keeps denotes⟩

/-- A write that succeeds leaves directories under all paths above. -/
theorem isDirectory_of_writeWithParents (start : w.tree.lookup? w.directory = some .directory)
    (h : w.writeWithParents p content = (w', none)) {q : Path} (mem : q ∈ p.above) :
    w'.isDirectory q = true := by
  obtain ⟨done, written⟩ := writeWithParents_eq_none_iff.1 h
  obtain ⟨l, led, there⟩ := isDirectory_eq_true_iff.1 (isDirectory_of_mem_above start done mem)
  obtain ⟨directory, sustains⟩ := sustains_of_write written
  exact isDirectory_eq_true_iff.2
    ⟨l, locate_of_sustains sustains directory led, sustains.directory l there⟩

namespace Receives

/-- What was received is read back, and nothing else has changed. -/
theorem overwrites (h : w.Receives w' p content l) : w.Overwrites w' p content where
  read := by
    rw [read, h.located]
    show w'.contentAt l = .ok content
    rw [contentAt, h.file]
  directory := h.directory
  others := by
    intro l' e there
    by_cases here : l' = l
    · rw [here]
      exact .inr h.located
    · exact .inl (h.kept l' e here there)

end Receives

/-- **Where something can be written, anything can be**, and it is read back. -/
theorem Writable.exists_overwrites (h : w.Writable p) (content : Bytes) :
    ∃ w', w.writeWithParents p content = (w', none) ∧ w.Overwrites w' p content := by
  obtain ⟨content', writes⟩ := h
  obtain ⟨ready, written⟩ := writeWithParents_eq_none_iff.1 (Prod.ext rfl writes)
  obtain ⟨w', written'⟩ := exists_write written content
  have writes' := writeWithParents_eq_none_iff.2 ⟨ready, written'⟩
  obtain ⟨l, receives⟩ := exists_receives writes'
  exact ⟨w', writes', receives.overwrites⟩

/-! ### Files that are there -/

/-- There is something at the path of a settled location, so no directory can be made there. -/
theorem makeDirectory_toPath (shallow : w.tree.shallow.Settled l) :
    w.makeDirectory l.toPath = .error .alreadyExists := by
  have h := shallow.of_shallow
  rw [makeDirectory, makeEntry, spellingFault?_toPath shallow, Path.startFrom,
    if_pos l.isAbsolute_toPath]
  cases l using List.reverseRecOn with
  | nil => rfl
  | append_singleton l n =>
      have top : l ++ [n] ≠ [] := by simp
      obtain ⟨e, mem⟩ := h.exists_mem top
      obtain ⟨notEmpty, notDot, notDotDot, -, -, short⟩ : IsName n := h.isName (by simp)
      have above : w.tree.lookup? ([] ++ l) = some .directory := by
        have := FileTree.lookup?_dropLast_of_mem mem
        rwa [List.dropLast_concat] at this
      have trimmed : trimmedSegments (Location.toPath (l ++ [n])) = ([] :: l) ++ [n] := by
        rw [trimmedSegments, Location.segments_toPath top fun m hm => (h.isName hm).2.2.2.1,
          ← List.cons_append, List.reverse_concat,
          List.dropWhile_cons_of_neg (by simpa using notEmpty), List.reverse_cons,
          List.reverse_reverse]
      have parent : w.directoryOf [] ([] :: l) = .ok l := by
        rw [directoryOf, List.cons_append, FileTree.resolve, if_pos (.inl rfl),
          FileTree.resolve_names_append [[]] above, List.nil_append, FileTree.resolve,
          if_pos (.inl rfl), FileTree.resolve]
      have there : (w.tree.lookup? (l ++ [n])).isSome = true := by
        rcases h with directory | ⟨content, file⟩
        · rw [directory]
          rfl
        · rw [file]
          rfl
      simp only [trimmed, List.getLast?_concat, List.dropLast_concat, parent, bind, Except.bind]
      rw [if_neg (not_or.2 ⟨notDot, notDotDot⟩), if_neg (Nat.not_lt.2 short), if_pos there]

/-- A directory that is there need not be made. -/
theorem makeDirectories_toPath (h : w.tree.shallow.lookup? l = some .directory) :
    w.makeDirectories l.toPath = (w, none) := by
  have settled : w.tree.shallow.Settled l := .inl h
  have plain := Location.ofComponents_toPath fun n hn => settled.isName hn
  have there : w.isDirectory l.toPath = true := by
    rw [isDirectory, entry?, locate_toPath settled]
    simp [FileTree.lookup?_of_shallow h]
  have nonempty : l.toPath.components.reverse ≠ [] := by
    rw [Location.components_toPath fun n hn => settled.isName hn]
    simp
  obtain ⟨c, rest, reversed⟩ := List.exists_cons_of_ne_nil nonempty
  have spelled : Path.ofComponents (c :: rest).reverse = l.toPath := by
    rw [← reversed, List.reverse_reverse, plain]
  rw [makeDirectories, reversed, makeAll]
  simp only [spelled, makeDirectory_toPath settled, there, if_true]

/-- A name at the end of a spelling is no blank. -/
theorem dropBlanks_name {n : Name} (hn : IsName n) (ss : List Bytes) :
    dropBlanks (n :: ss) = n :: ss :=
  List.dropWhile_cons_of_neg (by simp [hn.1, hn.2.1])

/-- The path of a name below a directory is spelled with the path of the directory. -/
theorem length_spelledParent_toPath {n : Name} (isName : ∀ m ∈ l ++ [n], IsName m)
    (short : Location.Short l) :
    (spelledParent (Location.toPath (l ++ [n]))).bytes.length < pathBound := by
  rw [spelledParent, Location.segments_toPath (by simp) fun m hm => (isName m hm).2.2.2.1,
    ← List.cons_append, List.reverse_concat, dropBlanks_name (isName n (by simp)),
    List.drop_succ_cons, List.drop_zero]
  cases l using List.reverseRecOn with
  | nil => exact (by decide : 0 < pathBound)
  | append_singleton l m =>
      rw [Location.Short, Location.toPath_of_ne_nil (by simp)] at short
      rw [← List.cons_append, List.reverse_concat, dropBlanks_name (isName m (by simp)),
        ← List.reverse_concat, List.reverse_reverse, List.cons_append, Location.intercalate_cons]
      exact short

/-- **Every file of a tree can be written under its path**, if that can be opened. -/
theorem writable_toPath (h : w.tree.shallow.lookup? l = some (.file content)) :
    w.Writable l.toPath := by
  have settled : w.tree.shallow.Settled l := .inr ⟨content, h⟩
  have isName : ∀ m ∈ l, IsName m := fun m hm => settled.isName hm
  cases l using List.reverseRecOn with
  | nil => cases w.tree.shallow.lookup?_root.symm.trans h
  | append_singleton l n =>
      have top : l ++ [n] ≠ [] := by simp
      obtain ⟨e, mem⟩ := settled.exists_mem top
      have directory : w.tree.shallow.lookup? l = some .directory := by
        have := FileTree.lookup?_dropLast_of_mem mem
        rwa [List.dropLast_concat] at this
      have parent : (Location.toPath (l ++ [n])).parent? = some (Location.toPath l) := by
        have names : ∀ m ∈ l, IsName m := fun m hm => isName m (by simp [hm])
        rw [Path.parent?, Location.components_toPath isName, List.map_append, ← List.cons_append,
          List.map_singleton, List.getLast?_concat, List.dropLast_concat,
          ← Location.components_toPath names, Location.ofComponents_toPath names]
      have spelled : (Location.toPath l).bytes ≠ [] := by
        intro empty
        have := Location.isAbsolute_toPath l
        rw [Path.isAbsolute, empty] at this
        cases this
      have led : w.tree.target linkBound ((Location.toPath (l ++ [n])).startFrom w.directory)
          (Location.toPath (l ++ [n])).segments = .ok (l ++ [n]) := by
        rw [Path.startFrom, if_pos (Location.isAbsolute_toPath _),
          Location.segments_toPath top fun m hm => (isName m hm).2.2.2.1, FileTree.target,
          if_pos (.inl rfl)]
        exact FileTree.target_names top (FileTree.lookup?_of_shallow h)
      obtain ⟨tree, placed⟩ :=
        FileTree.exists_insert?_of_file (FileTree.lookup?_of_shallow h) content
      have written : w.write (Location.toPath (l ++ [n])) content = .ok { w with tree } :=
        write_eq_ok_iff.2 ⟨spellingFault?_toPath settled, _, tree, led, placed, rfl⟩
      have ready : w.withParents (Location.toPath (l ++ [n])) = (w, none) := by
        have short := length_spelledParent_toPath isName (FileTree.Settled.short (.inl directory))
        rw [withParents, parent]
        simp only [if_neg spelled, if_neg (Nat.not_le.2 short), makeDirectories_toPath directory]
      refine ⟨content, ?_⟩
      rw [writeWithParents_eq, ready, written]

end Workspace

end IncludeAtlas
