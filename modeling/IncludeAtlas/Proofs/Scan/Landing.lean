import IncludeAtlas.Proofs.FileTree.Follow
import IncludeAtlas.Proofs.Scan.Grounding

/-!
# Where a search lands

Whatever the token, the directories, the links on the way and the directory that relative paths
start from, a search ends: at a file, or nowhere.  The path of the file is canonical, which is to
say that it is its own canonical path, under every reading of it.  So a file has one path, and it
has one node however it was found.

## Main Definitions

* `Workspace.FirstReaches`: what a token reaches below the first of some directories where it
  reaches anything
* `Workspace.Fixed`: the path of a location leads to the location, whoever follows it
* `Workspace.Lands`: what a search comes to

## Main Results

* `Workspace.fixed_of_file`: the path of a file is fixed, if it can be opened
* `Workspace.lands`: every search lands

## What is load-bearing

A file stands in a directory of the tree, which stands in a directory of the tree, and so on up to
the root.  No link is among them, so nothing is left to follow on the path of a file, and it
starts at the root, so nothing else has a say in where it leads.
-/

namespace IncludeAtlas

namespace Workspace

variable {w : Workspace} {directories directories' : List Path} {token token' : Path}
  {l l' : Location} {content : Bytes}

/-- A token reaches a file below one of some directories, and no file below any that come
before. -/
def FirstReaches (w : Workspace) (directories : List Path) (token : Path) (l : Location) : Prop :=
  ∃ before d after, directories = before ++ d :: after ∧
    (∀ e ∈ before, ∀ l', ¬ w.Reaches (e.join token) l') ∧ w.Reaches (d.join token) l

theorem search?_eq_some_iff :
    w.search? directories token = some l ↔ w.FirstReaches directories token l := by
  rw [search?, List.findSome?_eq_some_iff]
  simp only [FirstReaches, file?_eq_some_iff_reaches, file?_eq_none_iff]
  constructor
  · rintro ⟨before, d, after, split, here, earlier⟩
    exact ⟨before, d, after, split, earlier, here⟩
  · rintro ⟨before, d, after, split, earlier, here⟩
    exact ⟨before, d, after, split, here, earlier⟩

theorem search?_eq_none_iff :
    w.search? directories token = none ↔ ∀ d ∈ directories, ∀ l, ¬ w.Reaches (d.join token) l := by
  simp only [search?, List.findSome?_eq_none_iff, file?_eq_none_iff]

/-- The path of a location is canonical: it is a way from the root without dots and links, and it
leads to a file at that location, whoever follows it from wherever. -/
structure Fixed (w : Workspace) (l : Location) : Prop where
  absolute : l.toPath.isAbsolute = true
  /-- It is short enough to be opened. -/
  short : l.Short
  /-- Its components are the root and the names of the location. -/
  components : l.toPath.components = .root :: l.map .name
  /-- None of the names is a dot or two dots. -/
  names : ∀ n ∈ l, IsName n
  /-- Neither the location nor anything above it is a link. -/
  unlinked : ∀ above, above <+: l → ∀ target, w.tree.lookup? above ≠ some (.link target)
  file : ∃ content, w.tree.lookup? l = some (.file content)
  /-- Made canonical, it is what it was, also from another directory. -/
  canonical : ∀ directory, canonicalize ⟨w.tree, directory⟩ l.toPath = .ok l
  /-- As a token, be it a text or not, it stands for itself below any directories. -/
  token : ∀ directory directories, directories ≠ [] →
    search? ⟨w.tree, directory⟩ directories l.toPath = some l ∧
      resolve ⟨w.tree, directory⟩ directories l.toPath = l.toPath

/-- **The path of a file is fixed**, if it can be opened. -/
theorem fixed_of_file (file : w.tree.shallow.lookup? l = some (.file content)) : w.Fixed l := by
  have settled : w.tree.shallow.Settled l := .inr ⟨content, file⟩
  have here := FileTree.lookup?_of_shallow file
  have names : ∀ n ∈ l, IsName n := fun _ => settled.isName
  have led : ∀ directory, canonicalize ⟨w.tree, directory⟩ l.toPath = .ok l :=
    fun _ => canonicalize_toPath settled
  refine ⟨l.isAbsolute_toPath, settled.short, Location.components_toPath names, names, ?_,
    ⟨content, here⟩, led, ?_⟩
  · intro above under target link
    by_cases whole : above = l
    · rw [whole, here] at link
      cases link
    · rw [FileTree.lookup?_of_prefix_of_ne settled.of_shallow under whole] at link
      cases link
  · intro directory directories ne
    have found : search? ⟨w.tree, directory⟩ directories l.toPath = some l := by
      rw [search?_of_isAbsolute l.isAbsolute_toPath ne, file?_eq_some_iff]
      exact ⟨led directory, content, file⟩
    exact ⟨found, by rw [resolve, found]⟩

/-- What a search comes to. -/
structure Lands (w : Workspace) (directories : List Path) (token : Path) : Prop where
  /-- It ends at the file that the token reaches first. -/
  found : ∀ l, w.search? directories token = some l ↔ w.FirstReaches directories token l
  /-- Or else it ends nowhere, as the token reaches nothing. -/
  missing : w.search? directories token = none ↔
    ∀ d ∈ directories, ∀ l, ¬ w.Reaches (d.join token) l
  /-- The token stands for the path of the file, which is fixed. -/
  fixed : ∀ l, w.search? directories token = some l →
    w.resolve directories token = l.toPath ∧ w.Fixed l
  /-- Two searches that reach one file come to one path, and otherwise to different ones. -/
  agree : ∀ directories' token' l l', w.FirstReaches directories token l →
    w.FirstReaches directories' token' l' →
    (l = l' → w.resolve directories token = w.resolve directories' token') ∧
      ((w.resolve directories token).Same (w.resolve directories' token') → l = l')
  /-- And in every graph, the nodes that they come to are one or different ones. -/
  node : ∀ directories' token' l l', w.FirstReaches directories token l →
    w.FirstReaches directories' token' l' → ∀ options g, IncludeGraph.Reachable options g →
    ∀ m ∈ g.nodes, m.path.Same (w.resolve directories token) →
    ∀ n ∈ g.nodes, n.path.Same (w.resolve directories' token') → (m = n ↔ l = l')

/-- A token stands for the path of the file that it reaches first, and that path is fixed. -/
theorem FirstReaches.fixed (h : w.FirstReaches directories token l) :
    w.resolve directories token = l.toPath ∧ w.Fixed l := by
  have found := search?_eq_some_iff.2 h
  obtain ⟨content, file⟩ := exists_file_of_search? found
  exact ⟨by rw [resolve, found], fixed_of_file file⟩

/-- Tokens stand for the same path only if they reach the same file. -/
theorem FirstReaches.same_iff (h : w.FirstReaches directories token l)
    (h' : w.FirstReaches directories' token' l') :
    (w.resolve directories token).Same (w.resolve directories' token') ↔ l = l' := by
  rw [h.fixed.1, h'.fixed.1]
  exact Location.same_toPath_iff h.fixed.2.names h'.fixed.2.names

/-- **Every search lands.**  In whatever tree, from whatever directory and below whatever
directories, a token is found or it is not; if it is, it stands for a path that is fixed, and what
reaches the same file stands for the same path and has the same node. -/
theorem lands (w : Workspace) (directories : List Path) (token : Path) :
    w.Lands directories token where
  found := fun _ => search?_eq_some_iff
  missing := search?_eq_none_iff
  fixed := fun _ found => (search?_eq_some_iff.1 found).fixed
  agree := by
    intro directories' token' l l' h h'
    refine ⟨?_, (h.same_iff h').1⟩
    rintro rfl
    rw [h.fixed.1, h'.fixed.1]
  node := by
    intro directories' token' l l' h h' options g reachable m hm sameM n hn sameN
    rw [← h.same_iff h']
    constructor
    · rintro rfl
      exact sameM.symm.trans sameN
    · intro same
      exact reachable.coherent.eq_of_same hm hn ((sameM.trans same).trans sameN.symm)

end Workspace

namespace Sample

/-- A header, a link from an inner directory back to the one around it, a chain of links to the
header that leads over that one, and a link to itself. -/
def winding : Workspace where
  tree := {
    entries := [([Utf8.encode "a"], .link (Path.ofString "b")),
      ([Utf8.encode "b"], .link (Path.ofString "d/e/up/x.h")),
      ([Utf8.encode "c"], .link (Path.ofString "c")),
      ([Utf8.encode "d"], .directory),
      ([Utf8.encode "d", Utf8.encode "e"], .directory),
      ([Utf8.encode "d", Utf8.encode "e", Utf8.encode "up"], .link (Path.ofString "..")),
      ([Utf8.encode "d", Utf8.encode "x.h"], .file [])]
    ascending := by decide
    named := by decide
    rooted := by decide }
  directory := [Utf8.encode "d", Utf8.encode "e"]

/-- Going up after the link leads to the root, and not back to where the link was. -/
example : winding.resolve [⟨[]⟩] (Path.ofString "up/../a") = Path.ofString "/d/x.h" := by
  cbv

/-- A link to itself leads nowhere. -/
example : winding.search? [⟨[]⟩, Path.ofString "/d"] (Path.ofString "/c") = none := by
  cbv

end Sample

end IncludeAtlas
