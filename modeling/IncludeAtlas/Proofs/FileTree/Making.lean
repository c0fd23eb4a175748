import IncludeAtlas.FileTree.Write
import IncludeAtlas.Proofs.FileTree.Follow
import IncludeAtlas.Proofs.Path.Normal
import Mathlib.Data.Set.Basic

/-!
# Making directories

What becomes of a workspace in which directories are made: one, or a row of them each in the one
before.  Nothing that was there goes away or changes, and what is new is a directory that one of
the paths leads to.

## Main Definitions

* `Path.upTo`, `Path.above`: the paths on the way to a path, in their plainest spelling
* `Workspace.Grows`: a workspace with more entries in it
* `Workspace.GrowsBy`: a workspace with more directories in it, all of them on some paths
* `Workspace.Attempts`: what comes of an attempt to make a directory

## Main Results

* `FileTree.lookup?_insert?`: an entry is where it was put, and everything else where it was
* `Workspace.makeEntry_eq_ok_iff`: where an entry can be made
* `Workspace.locate_of_makeDirectory`: a directory is found under the path it was made under
* `Workspace.growsBy_makeAll`: directories are made on the way to a path and nowhere else
* `Workspace.isDirectory_of_mem_upTo`: where a path leads to a directory, so do those on the way

## What is load-bearing

Directories and links that a way leads over stay when others are made, so the way still leads
where it did.  That is why a directory that was made first is found under its path in the end.
-/

namespace IncludeAtlas

/-! ## Paths on the way -/

namespace Path

variable {cs : List Component} {c : Component} {p q : Path}

/-- What some components begin with, spelled plainest. -/
def upTo (cs : List Component) : Set Path :=
  {q | ∃ ds, ds ≠ [] ∧ ds <+: cs ∧ q = ofComponents ds}

/-- The paths above a path: what it means without its last component, or without more. -/
def above (p : Path) : Set Path :=
  upTo p.components.dropLast

theorem upTo_nil : upTo [] = ∅ := by
  refine Set.eq_empty_of_forall_notMem ?_
  rintro q ⟨ds, ne, begins, -⟩
  exact ne (List.prefix_nil.1 begins)

theorem upTo_mono {ds : List Component} (h : ds <+: cs) : upTo ds ⊆ upTo cs := by
  rintro q ⟨es, ne, begins, rfl⟩
  exact ⟨es, ne, begins.trans h, rfl⟩

theorem ofComponents_concat (cs : List Component) (c : Component) :
    ofComponents (cs ++ [c]) = (ofComponents cs).join ⟨c.bytes⟩ := by
  unfold ofComponents
  rw [List.foldl_append]
  rfl

/-- What means something is spelled with something. -/
theorem bytes_ofComponents_ne_nil (proper : Proper cs) (ne : cs ≠ []) :
    (ofComponents cs).bytes ≠ [] := by
  intro empty
  have meaning := components_ofComponents proper
  rw [show ofComponents cs = ⟨[]⟩ from congrArg Path.mk empty] at meaning
  exact ne meaning.symm

/-- What comes after a component is ordinary. -/
theorem Proper.ordinary_of_concat (proper : Proper (cs ++ [c])) (ne : cs ≠ []) : c.Ordinary := by
  obtain ⟨d, ds, rfl⟩ := List.exists_cons_of_ne_nil ne
  cases proper with
  | cons _ tail => exact tail c (by simp)

end Path

/-! ## Trees -/

namespace FileTree

variable {t t' : FileTree} {l : Location} {e : Entry}

theorem insert?_eq_some_iff :
    t.insert? l e = some t' ↔ t.Admits l e ∧ t'.entries = place t.entries l e := by
  rw [insert?]
  split
  · rename_i admits
    rw [Option.some.injEq]
    constructor
    · rintro rfl
      exact ⟨admits, rfl⟩
    · rintro ⟨-, entries⟩
      cases t'
      cases entries
      rfl
  · rename_i admits
    simp [admits]

/-- **An entry is where it was put**, and everything else is where it was. -/
theorem lookup?_insert? (h : t.insert? l e = some t') (l' : Location) :
    t'.lookup? l' = if l' = l then some e else t.lookup? l' := by
  obtain ⟨admits, entries⟩ := insert?_eq_some_iff.1 h
  by_cases top : l' = []
  · subst top
    rw [if_neg (Ne.symm admits.1), lookup?_root, lookup?_root]
  · refine Option.ext fun x => ?_
    rw [lookup?_eq_some_iff top, entries]
    split
    · rename_i here
      subst here
      constructor
      · intro mem
        rcases mem_place mem with eq | ⟨-, ne⟩
        · rw [(Prod.mk.inj eq).2]
        · exact absurd rfl ne
      · intro eq
        rw [← Option.some.inj eq]
        exact mem_place_self
    · rename_i there
      rw [lookup?_eq_some_iff top]
      constructor
      · intro mem
        rcases mem_place mem with eq | ⟨old, -⟩
        · exact absurd (Prod.mk.inj eq).1 there
        · exact old
      · exact fun old => mem_place_of_ne old there

end FileTree

/-! ## Workspaces -/

namespace Workspace

variable {w w' w'' : Workspace} {p q : Path} {l : Location} {e : Entry} {cs : List Component}
  {c : Component} {fault : Option IoFault} {S T : Set Path}

/-- A workspace has all entries of another one, and the same directory to start from. -/
structure Grows (w w' : Workspace) : Prop where
  directory : w'.directory = w.directory
  kept : ∀ l e, w.tree.lookup? l = some e → w'.tree.lookup? l = some e

theorem Grows.sustains (h : w.Grows w') : w.tree.Sustains w'.tree where
  directory := fun l there => h.kept l _ there
  link := fun l _ there => h.kept l _ there
  file := fun l content there => ⟨content, h.kept l _ there⟩

/-- What a path denotes it goes on denoting. -/
theorem Grows.locate (h : w.Grows w') (led : w.locate p = .ok l) : w'.locate p = .ok l :=
  locate_of_sustains h.sustains h.directory led

/-- A workspace has more entries than another one only by directories that some paths denote. -/
structure GrowsBy (S : Set Path) (w w' : Workspace) : Prop extends w.Grows w' where
  made : ∀ l e, w.tree.lookup? l = none → w'.tree.lookup? l = some e →
    e = .directory ∧ ∃ q ∈ S, w'.locate q = .ok l

namespace GrowsBy

theorem refl (S : Set Path) (w : Workspace) : GrowsBy S w w where
  directory := rfl
  kept := fun _ _ there => there
  made := by
    intro l e free there
    rw [free] at there
    cases there

theorem mono (sub : S ⊆ T) (h : GrowsBy S w w') : GrowsBy T w w' where
  toGrows := h.toGrows
  made := by
    intro l e free there
    obtain ⟨directory, q, mem, led⟩ := h.made l e free there
    exact ⟨directory, q, sub mem, led⟩

/-- Growing twice is growing.  What was made first is still found under its path. -/
theorem trans (h : GrowsBy S w w') (h' : GrowsBy S w' w'') : GrowsBy S w w'' where
  directory := h'.directory.trans h.directory
  kept := fun l e there => h'.kept l e (h.kept l e there)
  made := by
    intro l e free there
    cases before : w'.tree.lookup? l with
    | none => exact h'.made l e before there
    | some e' =>
        obtain ⟨rfl, q, mem, led⟩ := h.made l e' free before
        have eq := (h'.kept l .directory before).symm.trans there
        exact ⟨(Option.some.inj eq).symm, q, mem, h'.locate led⟩

end GrowsBy

/-! ### One directory -/

theorem withEntry_eq_ok_iff :
    w.withEntry l e = .ok w' ↔ ∃ tree, w.tree.insert? l e = some tree ∧ w' = { w with tree } := by
  rw [withEntry]
  cases w.tree.insert? l e with
  | none => simp
  | some tree => simp [eq_comm]

/-- **Where an entry can be made**: under a name in the directory that the rest of the path leads
to, if nothing stands there. -/
theorem makeEntry_eq_ok_iff :
    w.makeEntry p e = .ok w' ↔ spellingFault? p = none ∧ ∃ front s d tree,
      trimmedSegments p = front ++ [s] ∧ w.directoryOf (p.startFrom w.directory) front = .ok d ∧
      w.tree.lookup? (d ++ [s]) = none ∧ w.tree.insert? (d ++ [s]) e = some tree ∧
      w' = { w with tree } := by
  rw [makeEntry]
  cases spellingFault? p with
  | some fault => simp
  | none =>
      cases trimmedSegments p using List.reverseRecOn with
      | nil => simp
      | append_singleton front s =>
          cases led : w.directoryOf (p.startFrom w.directory) front with
          | error fault => simp [led, bind, Except.bind]
          | ok d =>
              simp only [List.getLast?_concat, List.dropLast_concat, led, bind, Except.bind,
                true_and]
              constructor
              · intro made
                split_ifs at made with dots long there
                obtain ⟨tree, placed, rfl⟩ := withEntry_eq_ok_iff.1 made
                exact ⟨front, s, d, tree, rfl, led, by simpa using there, placed, rfl⟩
              · rintro ⟨front', s', d', tree, eq, led', free, placed, rfl⟩
                obtain ⟨rfl, rfl⟩ := List.append_singleton_inj.1 eq
                obtain rfl := Except.ok.inj (led.symm.trans led')
                obtain ⟨-, names, -⟩ := (FileTree.insert?_eq_some_iff.1 placed).1
                obtain ⟨-, notDot, notDotDot, -, -, short⟩ := names s (by simp)
                rw [if_neg (not_or.2 ⟨notDot, notDotDot⟩), if_neg (Nat.not_lt.2 short),
                  if_neg (by simp [free])]
                exact withEntry_eq_ok_iff.2 ⟨tree, placed, rfl⟩

/-- The segments of a path are those without the empty ones at its end, and these. -/
theorem exists_segments_eq (p : Path) :
    ∃ k, p.segments = trimmedSegments p ++ List.replicate k [] := by
  have blank : ∀ s ∈ p.segments.reverse.takeWhile (· == []), s = [] := fun s hs =>
    eq_of_beq (List.all_eq_true.1 List.all_takeWhile s hs)
  have parts : p.segments.reverse.takeWhile (· == []) ++ p.segments.reverse.dropWhile (· == []) =
      p.segments.reverse := List.takeWhile_append_dropWhile
  rw [List.eq_replicate_of_mem blank] at parts
  refine ⟨(p.segments.reverse.takeWhile (· == [])).length, ?_⟩
  rw [← List.reverse_inj, trimmedSegments, List.reverse_append, List.reverse_reverse,
    List.reverse_replicate]
  exact parts.symm

/-- **A directory is found under the path that it was made under**, where nothing was, and nothing
else is new. -/
theorem locate_of_makeDirectory (h : w.makeDirectory p = .ok w') :
    w'.directory = w.directory ∧ ∃ l, w'.locate p = .ok l ∧ w.tree.lookup? l = none ∧
      ∀ l', w'.tree.lookup? l' = if l' = l then some .directory else w.tree.lookup? l' := by
  obtain ⟨spelled, front, s, d, tree, trimmed, led, free, placed, rfl⟩ := makeEntry_eq_ok_iff.1 h
  have found := FileTree.lookup?_insert? placed
  have grows : w.Grows { w with tree } := by
    refine ⟨rfl, fun l e there => ?_⟩
    rw [found, if_neg, there]
    rintro rfl
    cases free.symm.trans there
  refine ⟨rfl, d ++ [s], locate_eq_ok_iff_leads.2 ⟨spelled, ?_⟩, free, found⟩
  obtain ⟨k, segments⟩ := exists_segments_eq p
  obtain ⟨n, le, leads⟩ := FileTree.resolve_eq_ok_iff.1 led
  have last : tree.Leads 0 d (s :: List.replicate k []) (d ++ [s]) :=
    .enter (by rw [found, if_pos rfl]) (tree.leads_replicate _ k)
  refine ⟨n + 0, le, ?_⟩
  rw [segments, trimmed, List.append_assoc]
  exact (grows.sustains.leads leads).append last

/-- Where a directory is made, nothing else changes. -/
theorem growsBy_of_makeDirectory (h : w.makeDirectory p = .ok w') : GrowsBy {p} w w' := by
  obtain ⟨directory, l, led, free, found⟩ := locate_of_makeDirectory h
  refine ⟨⟨directory, fun l' e there => ?_⟩, fun l' e missing there => ?_⟩
  · rw [found, if_neg, there]
    rintro rfl
    cases free.symm.trans there
  · rw [found] at there
    split at there
    · rename_i here
      subst here
      exact ⟨(Option.some.inj there).symm, p, rfl, led⟩
    · cases missing.symm.trans there

theorem isDirectory_of_makeDirectory (h : w.makeDirectory p = .ok w') :
    w'.isDirectory p = true := by
  obtain ⟨-, l, led, -, found⟩ := locate_of_makeDirectory h
  exact isDirectory_eq_true_iff.2 ⟨l, led, by rw [found, if_pos rfl]⟩

/-! ### A row of directories -/

/-- What comes of an attempt to make a directory: it is made, it is there already, or there is a
fault. -/
inductive Attempts (w : Workspace) (p : Path) : Workspace × Option IoFault → Prop
  | made {w' : Workspace} : w.makeDirectory p = .ok w' → Attempts w p (w', none)
  | there : w.isDirectory p = true → Attempts w p (w, none)
  | failed (fault : IoFault) : Attempts w p (w, some fault)

namespace Attempts

variable {result : Workspace × Option IoFault}

theorem growsBy (h : w.Attempts p result) : GrowsBy {p} w result.1 := by
  cases h with
  | made made => exact growsBy_of_makeDirectory made
  | there => exact .refl _ w
  | failed => exact .refl _ w

theorem isDirectory (h : w.Attempts p result) (done : result.2 = none) :
    result.1.isDirectory p = true := by
  cases h with
  | made made => exact isDirectory_of_makeDirectory made
  | there there => exact there
  | failed => cases done

theorem unlessThere (w : Workspace) (p : Path) (fault : IoFault) :
    w.Attempts p (w, if w.isDirectory p then none else some fault) := by
  split
  · rename_i there
    exact .there there
  · exact .failed fault

end Attempts

/-- **A row of directories is made by an attempt at the last one**, at once or after those before
it, unless one of these fails. -/
theorem makeAll_cons (w : Workspace) (c : Component) (cs : List Component) :
    w.Attempts (.ofComponents (c :: cs).reverse) (w.makeAll (c :: cs)) ∨
      ((w.makeAll cs).2 = none ∧
        (w.makeAll cs).1.Attempts (.ofComponents (c :: cs).reverse) (w.makeAll (c :: cs))) ∨
      (w.makeAll (c :: cs) = w.makeAll cs ∧ (w.makeAll cs).2 ≠ none) := by
  rw [makeAll]
  simp only
  split
  · rename_i made
    exact .inl (.made made)
  · -- the directories before it, and then once more this one
    refine .inr ?_
    split
    · rename_i before
      exact .inr ⟨before.symm, by simp [before]⟩
    · rename_i w₁ before
      refine .inl ⟨by rw [before], ?_⟩
      rw [before]
      split
      · rename_i made
        exact .made made
      · exact .unlessThere w₁ _ _
  · exact .inl (.unlessThere w _ _)

/-- **Directories are made on the way to a path and nowhere else**, even if not all could be
made. -/
theorem growsBy_makeAll (w : Workspace) (cs : List Component) :
    GrowsBy (Path.upTo cs.reverse) w (w.makeAll cs).1 := by
  induction cs with
  | nil => exact .refl _ w
  | cons c cs ih =>
      have last : ({.ofComponents (c :: cs).reverse} : Set Path) ⊆ Path.upTo (c :: cs).reverse := by
        rintro q rfl
        exact ⟨(c :: cs).reverse, by simp, List.prefix_rfl, rfl⟩
      have before : GrowsBy (Path.upTo (c :: cs).reverse) w (w.makeAll cs).1 := by
        refine ih.mono (Path.upTo_mono ?_)
        rw [List.reverse_cons]
        exact List.prefix_append _ _
      rcases makeAll_cons w c cs with attempt | ⟨-, attempt⟩ | ⟨eq, -⟩
      · exact attempt.growsBy.mono last
      · exact before.trans (attempt.growsBy.mono last)
      · rwa [eq]

/-- A row of directories that was made ends in a directory. -/
theorem isDirectory_makeAll (ne : cs ≠ []) (h : (w.makeAll cs).2 = none) :
    (w.makeAll cs).1.isDirectory (.ofComponents cs.reverse) = true := by
  obtain ⟨c, cs, rfl⟩ := List.exists_cons_of_ne_nil ne
  rcases makeAll_cons w c cs with attempt | ⟨-, attempt⟩ | ⟨eq, failed⟩
  · exact attempt.isDirectory h
  · exact attempt.isDirectory h
  · rw [eq] at h
    exact absurd h failed

/-! ### Directories on the way -/

/-- What can be spelled with more behind it can be spelled by itself. -/
theorem spellingFault?_of_join {d token : Path} (nonempty : d.bytes ≠ [])
    (relative : token.isAbsolute = false) (h : spellingFault? (d.join token) = none) :
    spellingFault? d = none := by
  obtain ⟨noNul, -, short⟩ := spellingFault?_eq_none_iff.1 h
  refine spellingFault?_eq_none_iff.2 ⟨fun nul => noNul ?_, nonempty, ?_⟩
  · exact (Path.mem_bytes_join_iff (by decide) nonempty relative).2 (.inl nul)
  · rcases Path.bytes_join nonempty relative with ⟨-, spelled⟩ | ⟨-, spelled⟩
    · rw [spelled, List.length_append] at short
      omega
    · rw [spelled, List.length_append] at short
      omega

/-- What stands before the last component of a path that denotes something is a directory. -/
theorem isDirectory_of_concat (start : w.tree.lookup? w.directory = some .directory)
    (proper : Path.Proper (cs ++ [c])) (ne : cs ≠ [])
    (led : w.locate (.ofComponents (cs ++ [c])) = .ok l) :
    w.isDirectory (.ofComponents cs) = true := by
  have nonempty := Path.bytes_ofComponents_ne_nil (proper.of_isPrefix (List.prefix_append cs [c])) ne
  have ordinary := proper.ordinary_of_concat ne
  have relative := Path.isAbsolute_of_notMem ordinary.piece
  rw [Path.ofComponents_concat] at led
  obtain ⟨spelled, n, le, leads⟩ := locate_eq_ok_iff_leads.1 led
  obtain ⟨front, joined, segments⟩ := Path.segments_join nonempty relative
  have alone : Path.segments ⟨c.bytes⟩ = [c.bytes] := Cut.pieces_of_notMem ordinary.piece
  have meaningful := (Path.meaning_of_componentOf? ordinary.spelled)
  rw [joined, alone, Path.startFrom, Path.isAbsolute_join_eq nonempty relative,
    ← Path.startFrom] at leads
  obtain ⟨m, lt, d, way, directory⟩ :=
    leads.before (FileTree.lookup?_startFrom start _) (not_or.2 meaningful)
  refine isDirectory_eq_true_iff.2 ⟨d, locate_eq_ok_iff_leads.2
    ⟨spellingFault?_of_join nonempty relative spelled, m, lt.trans le, ?_⟩, directory⟩
  rcases segments with whole | ended
  · have on := way.append .here
    rwa [List.append_nil, ← whole] at on
  · rwa [ended]

/-- **Where a path leads to a directory, so do those on the way.** -/
theorem isDirectory_of_mem_upTo (start : w.tree.lookup? w.directory = some .directory)
    (proper : Path.Proper cs) (there : w.isDirectory (.ofComponents cs) = true)
    (mem : p ∈ Path.upTo cs) : w.isDirectory p = true := by
  obtain ⟨ds, ne, begins, rfl⟩ := mem
  induction cs using List.reverseRecOn with
  | nil => exact absurd (List.prefix_nil.1 begins) ne
  | append_singleton cs c ih =>
      rcases List.prefix_concat_iff.1 begins with rfl | begins
      · exact there
      · obtain ⟨l, led, -⟩ := isDirectory_eq_true_iff.1 there
        have more : cs ≠ [] := by
          rintro rfl
          exact ne (List.prefix_nil.1 begins)
        exact ih (proper.of_isPrefix (List.prefix_append cs [c]))
          (isDirectory_of_concat start proper more led) begins

end Workspace

end IncludeAtlas
