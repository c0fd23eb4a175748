import IncludeAtlas.Proofs.FileTree.Follow
import IncludeAtlas.Proofs.Scan.Once

/-!
# What a scan sees

Below a root, a scan that honors no ignore files goes through everything that can be reached
without links, and sees what has a matching name.  What leads to a directory it counts, and all
else it takes for a candidate, be it a file, a link to one, or a link to nothing.

## Main Definitions

* `FileTree.LeadsToDirectory`: an entry is a directory, or links lead from it to one
* `Workspace.SeenAs`: what an entry with a matching name is taken for
* `Workspace.Enumerates`: what is seen below one root with one pattern
* `Scanner.seen`: what is seen below all roots with all patterns

## Main Results

* `Workspace.exists_enumerates`: below every root, every pattern has its row of sightings
* `Scanner.walk_enumerates`: in a tree that can be opened, a walk reads the candidates among them
  and counts the directories

## Design notes

Three notions of a directory meet here.  A tour enters what is a directory itself; a sighting asks
where an entry leads over links; and the name of an entry is matched whatever the entry is.  So a
directory with a matching name is counted and entered, and a link to it is counted only.

A directory is entered, and an entry looked at, under its path from the root.  Where that is too
long there is nothing to be seen, so the directories and links of the tree are required to have
paths that can be opened (`FileTree.Openable`).
-/

namespace IncludeAtlas

/-- An entry is a directory, or links lead from it to one, and not too many of them. -/
def FileTree.LeadsToDirectory (t : FileTree) (l : Location) : Prop :=
  ∃ n ≤ linkBound, ∃ d, t.Leads n [] l d ∧ t.lookup? d = some .directory

namespace Workspace

variable {w : Workspace} {root l : Location} {e : Entry} {pattern : List Glob.Token}

/-- An entry that can be looked at is taken for a directory exactly if it leads to one. -/
theorem leadsToDirectory_iff_of_short (short : l.Short) :
    w.leadsToDirectory l = true ↔ w.tree.LeadsToDirectory l := by
  rw [leadsToDirectory, if_pos short, FileTree.LeadsToDirectory]
  constructor
  · intro h
    split at h
    · rename_i d led
      obtain ⟨n, le, leads⟩ := FileTree.resolve_eq_ok_iff.1 led
      exact ⟨n, le, d, leads, by simpa using h⟩
    · cases h
  · rintro ⟨n, le, d, leads, directory⟩
    rw [FileTree.resolve_eq_ok_iff.2 ⟨n, le, leads⟩]
    simpa using directory

theorem leadsToDirectory_iff (openable : w.tree.Openable) (mem : (l, e) ∈ w.tree.entries) :
    w.leadsToDirectory l = true ↔ w.tree.LeadsToDirectory l := by
  by_cases short : l.Short
  · exact leadsToDirectory_iff_of_short short
  · -- what cannot be looked at is a file, and that leads to itself
    obtain ⟨content, file⟩ := openable.exists_file mem short
    have settled : w.tree.Settled l := .inr ⟨content, file⟩
    refine iff_of_false (by simp [leadsToDirectory_of_file file]) ?_
    rintro ⟨n, le, d, leads, directory⟩
    have led := FileTree.resolve_eq_ok_iff.2 ⟨n, le, leads⟩
    rw [settled.resolve_eq] at led
    rw [← Except.ok.inj led, file] at directory
    cases directory

/-- What an entry with a matching name is taken for. -/
inductive SeenAs (w : Workspace) (root l : Location) : Sighting → Prop
  | directory : w.tree.LeadsToDirectory l → SeenAs w root l .directory
  | candidate : ¬ w.tree.LeadsToDirectory l → SeenAs w root l (.candidate ⟨l, root⟩)

theorem seenAs_sight (openable : w.tree.Openable) (mem : (l, e) ∈ w.tree.entries)
    (root : Location) : w.SeenAs root l (w.sight root l) := by
  rw [sight]
  split
  · rename_i directory
    exact .directory ((leadsToDirectory_iff openable mem).1 directory)
  · rename_i other
    exact .candidate (mt (leadsToDirectory_iff openable mem).2 other)

/-- What is visited below a root, and what is seen there with a pattern. -/
structure Enumerates (w : Workspace) (root : Location) (pattern : List Glob.Token)
    (visited : List Location) (seen : List Sighting) : Prop where
  /-- Visits go depth first, in the order of names, and enter no links. -/
  tours : w.tree.Tours root visited
  /-- They come to everything that can be reached so. -/
  reached : ∀ l, l ∈ visited ↔ w.tree.Descends root l
  /-- They come to it once. -/
  once : visited.Nodup
  /-- They do not come to the root. -/
  proper : root ∉ visited
  /-- Each entry with a matching name is seen, in this order. -/
  seen : List.Forall₂ (w.SeenAs root) (visited.filter (nameMatches pattern)) seen

/-- **Below every root, every pattern has its row of sightings.** -/
theorem exists_enumerates (openable : w.tree.Openable) (root : Location)
    (pattern : List Glob.Token) :
    ∃ visited, w.Enumerates root pattern visited (w.sightings false [pattern] root) := by
  have tours : w.tree.Tours root ((w.tree.below root).map Prod.fst) := FileTree.tours_iff.2 rfl
  refine ⟨_, tours, fun _ => tours.mem_iff, w.tree.nodup_below root, ?_, ?_⟩
  · intro here
    exact (FileTree.mem_below_iff.1 here).2.1 rfl
  · have rows : w.sightings false [pattern] root =
        (((w.tree.below root).map Prod.fst).filter (nameMatches pattern)).map (w.sight root) := by
      rw [← considered_eq openable]
      exact List.flatMap_singleton _ _
    rw [rows, List.forall₂_map_right_iff]
    refine List.forall₂_same.2 fun l hl => ?_
    obtain ⟨-, -, e, mem⟩ := FileTree.mem_below_iff.1 (List.mem_filter.1 hl).1
    exact seenAs_sight openable mem root

end Workspace

namespace Scanner

variable {s : Scanner} {w : Workspace} {roots : List Location}

/-- What is seen below some roots, root by root and pattern by pattern. -/
def seen (s : Scanner) (w : Workspace) (roots : List Location) : List Sighting :=
  roots.flatMap fun root => s.patterns.flatMap fun pattern => w.sightings false [pattern] root

theorem sightings_eq_seen (plain : s.options.honorIgnoreFiles = false) :
    s.sightings w roots = s.seen w roots := by
  rw [sightings, seen, plain]
  refine congrArg (List.flatMap · roots) (funext fun root => ?_)
  simp only [Workspace.sightings, List.flatMap_singleton]

/-- What is seen and no directory is a candidate of the walk. -/
theorem candidates_eq (plain : s.options.honorIgnoreFiles = false) :
    s.candidates w roots = (s.seen w roots).filterMap candidate? := by
  rw [← sightings_eq_seen plain, candidates_eq_filterMap]

/-- **A walk sees what there is.**  If no ignore files are honored and the tree can be opened, then
below each root and with each pattern a walk sees everything with a matching name that can be
reached without links, once and in the order of a tour.  It reads the candidates among what it
sees, in this order, and it counts the directories. -/
theorem walk_enumerates (plain : s.options.honorIgnoreFiles = false)
    (openable : w.tree.Openable) (located : rootsOf w s.options.roots = .ok roots)
    (g : IncludeGraph) :
    (∀ root ∈ roots, w.tree.lookup? root = some .directory ∧ ∀ pattern ∈ s.patterns,
      ∃ visited, w.Enumerates root pattern visited (w.sightings false [pattern] root)) ∧
    ∃ summary, s.walk w g =
        (g.replay (historyOf (w.filesOf s.options ((s.seen w roots).filterMap candidate?))),
          .ok summary) ∧
      summary.directoriesSkipped = (s.seen w roots).count .directory ∧
      summary.scanned + summary.failed = ((s.seen w roots).filterMap candidate?).length := by
  have directories := Workspace.lookup?_of_areRoots (rootsOf_eq_ok_iff.1 located).2
  refine ⟨fun root hr => ⟨directories root hr, fun pattern _ =>
    Workspace.exists_enumerates openable root pattern⟩, s.count w roots, ?_, ?_, ?_⟩
  · rw [walk_of_ok located, found, candidates_eq plain]
  · rw [count_eq, sightings_eq_seen plain, List.count_eq_length_filter]
    rfl
  · rw [count_eq, ← candidates_eq plain]
    exact Nat.add_sub_cancel' (s.length_found_le w roots)

end Scanner

namespace Sample

/-- A directory that is named like a source, with a source in it, and links that are named like
sources: to the directory around them, to nothing, and to a file. -/
def maze : Workspace where
  tree := {
    entries := [(top, .directory),
      (top ++ [Utf8.encode "around.c"], .link (Path.ofString "../r")),
      (top ++ [Utf8.encode "gone.c"], .link (Path.ofString "nothing")),
      (top ++ [Utf8.encode "m.c"], .directory),
      (top ++ [Utf8.encode "m.c", Utf8.encode "x.c"], .file []),
      (top ++ [Utf8.encode "note"], .file []),
      (top ++ [Utf8.encode "other.c"], .link (Path.ofString "note"))]
    ascending := by decide
    named := by decide
    rooted := by decide }
  directory := []

/-- A scanner for sources in the maze. -/
def explorer : Scanner :=
  ⟨⟨[Path.ofString "/r"], ["*.c"], [], false⟩, [pattern]⟩

/-- The directory is counted and entered, the link to the directory around it is only counted, and
the link to nothing is a candidate. -/
theorem walk_enumerates_maze :
    maze.tree.Openable ∧ Scanner.rootsOf maze explorer.options.roots = .ok [top] ∧
    (∃ visited, maze.Enumerates top pattern visited [.directory,
      .candidate ⟨top ++ [Utf8.encode "gone.c"], top⟩, .directory,
      .candidate ⟨top ++ [Utf8.encode "m.c", Utf8.encode "x.c"], top⟩,
      .candidate ⟨top ++ [Utf8.encode "other.c"], top⟩]) ∧
    ∃ g summary, explorer.walk maze (IncludeGraph.empty GraphOptions.default) = (g, .ok summary) ∧
      summary.directoriesSkipped = 2 ∧ summary.scanned + summary.failed = 3 := by
  have openable : maze.tree.Openable := FileTree.openable_of_short (by decide)
  have located : Scanner.rootsOf maze explorer.options.roots = .ok [top] := by cbv
  have sightings : maze.sightings false [pattern] top = [.directory,
      .candidate ⟨top ++ [Utf8.encode "gone.c"], top⟩, .directory,
      .candidate ⟨top ++ [Utf8.encode "m.c", Utf8.encode "x.c"], top⟩,
      .candidate ⟨top ++ [Utf8.encode "other.c"], top⟩] := by cbv
  have seen : explorer.seen maze [top] = maze.sightings false [pattern] top := by
    rw [Scanner.seen, List.flatMap_singleton]
    exact List.flatMap_singleton _ _
  obtain ⟨rows, summary, walked, skipped, counted⟩ :=
    Scanner.walk_enumerates rfl openable located (IncludeGraph.empty GraphOptions.default)
  obtain ⟨-, enumerated⟩ := rows top List.mem_cons_self
  rw [seen, sightings] at skipped counted
  refine ⟨openable, located, ?_, _, summary, walked, skipped, counted⟩
  rw [← sightings]
  exact enumerated pattern List.mem_cons_self

end Sample

end IncludeAtlas
