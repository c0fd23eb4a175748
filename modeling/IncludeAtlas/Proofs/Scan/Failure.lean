import IncludeAtlas.Proofs.FileTree.Follow
import IncludeAtlas.Proofs.Graph.Growth
import IncludeAtlas.Proofs.Graph.Run
import IncludeAtlas.Proofs.Scan.Composition

/-!
# What a failure leaves behind

A walk can fail as a whole, at its roots, and then the graph has not been touched.  Or it
succeeds and single candidates of it fail: a link that leads nowhere, a file that holds no text.
They are counted, and that is all that is left of them.

## Main Definitions

* `Workspace.FirstInvalid`: the path that a row of roots is refused for
* `Workspace.Fails`: a candidate leads nowhere, or to a file without a text
* `Workspace.Scannable`: what may be a candidate
* `Workspace.ComesTo`: what comes of a row of candidates
* `Scanner.Enters`: what a walk that succeeds leaves
* `Scanner.Contained`: what a walk leaves, be it that it succeeds or that it fails

## Main Results

* `Workspace.fails_iff`: a candidate fails exactly if it cannot be scanned
* `Scanner.rootsOf_eq_error_iff`: why roots are refused
* `IncludeGraph.Reachable.contained`: the failures of a walk are contained

## What is load-bearing

Draws, numbers and entries of the registry are spent on registrations only.  A walk registers
what it has read, in the order in which it has seen it, so a failure among the candidates shifts
nothing.
-/

namespace IncludeAtlas

/-! ## Roots -/

/-- A path is the first of some paths that leads to no directory. -/
def Workspace.FirstInvalid (w : Workspace) (ps : List Path) (p : Path) : Prop :=
  ∃ before after, ps = before ++ p :: after ∧ (∀ q ∈ before, ∃ l, w.IsRoot q l) ∧
    ∀ l, ¬ w.IsRoot p l

/-- **Why roots are refused**: there are none, or one of them leads to no directory, and then
the first such root is named, wherever it stands. -/
theorem Scanner.rootsOf_eq_error_iff {w : Workspace} {ps : List Path} {e : ScanError} :
    rootsOf w ps = .error e ↔
      ps = [] ∧ e = .noRoots ∨ ∃ p, w.FirstInvalid ps p ∧ e = .invalidRoot p := by
  rw [rootsOf]
  cases ps with
  | nil =>
      have none : ∀ p, ¬ w.FirstInvalid [] p := by
        rintro p ⟨before, after, split, -⟩
        cases before <;> cases split
      simp [none, eq_comm]
  | cons q ps =>
      simp only [List.isEmpty_cons, Bool.false_eq_true, if_false, mapM_eq_error_iff,
        rootOf_eq_ok_iff, rootOf_eq_error_iff, reduceCtorEq, false_and, false_or,
        Workspace.FirstInvalid]
      constructor
      · rintro ⟨before, p, after, split, earlier, invalid, rfl⟩
        exact ⟨p, ⟨before, after, split, earlier, invalid⟩, rfl⟩
      · rintro ⟨p, ⟨before, after, split, earlier, invalid⟩, rfl⟩
        exact ⟨before, p, after, split, earlier, invalid, rfl⟩

namespace Workspace

variable {w : Workspace} {o : ScanOptions} {c : Candidate} {cs : List Candidate} {p : Path}

/-! ## Candidates -/

/-- A candidate fails: it leads nowhere, or to a file whose content is no text. -/
inductive Fails (w : Workspace) (c : Candidate) : Prop
  | lost {fault : IoFault} :
      w.tree.canonical linkBound [] c.location = .error fault → Fails w c
  | illegible {l : Location} {content : Bytes} :
      w.tree.canonical linkBound [] c.location = .ok l →
      w.tree.lookup? l = some (.file content) → Utf8.decode? content = none → Fails w c

/-- A candidate leads to what stands at a path.  No candidate leads to the path of a link. -/
def LeadsTo (w : Workspace) (c : Candidate) (p : Path) : Prop :=
  ∃ l, w.tree.canonical linkBound [] c.location = .ok l ∧ l.toPath.Same p

/-- What fails cannot be read. -/
theorem Fails.not_reads {l : Location} {source : String} (h : w.Fails c) :
    ¬ w.Reads c l source := by
  rintro ⟨led, content, file, text⟩
  cases h with
  | lost nowhere => cases nowhere.symm.trans led
  | illegible led' file' noText =>
      obtain rfl := Except.ok.inj (led'.symm.trans led)
      have here := FileTree.lookup?_of_shallow file
      obtain rfl := Entry.file.inj (Option.some.inj (file'.symm.trans here))
      cases noText.symm.trans text

/-- What fails is no file of a scan. -/
theorem Fails.exists_scanFile_eq_error (h : w.Fails c) : ∃ e, w.scanFile o c = .error e := by
  cases scanned : w.scanFile o c with
  | error e => exact ⟨e, rfl⟩
  | ok f =>
      obtain ⟨l, source, reads, -⟩ := scanFile_eq_ok_iff.1 scanned
      exact absurd reads h.not_reads

/-- What a scan may take for a candidate: it is seen, and no directory is seen there. -/
def Scannable (w : Workspace) (l : Location) : Prop :=
  (∃ e, (l, e) ∈ w.tree.listed.entries) ∧ w.leadsToDirectory l = false

/-- What is no directory and does not fail can be read. -/
theorem fails_or_reads (entry : w.Scannable c.location) :
    w.Fails c ∨ ∃ l source, w.Reads c l source := by
  obtain ⟨⟨e, seen⟩, noDirectory⟩ := entry
  by_cases short : c.location.Short
  · cases led : w.tree.canonical linkBound [] c.location with
    | error fault => exact .inl (.lost led)
    | ok l =>
        -- what it leads to is settled, and a directory is ruled out
        rcases FileTree.settled_of_canonical led with directory | ⟨content, file⟩
        · have found := FileTree.resolve_of_canonical led
          simp [leadsToDirectory, short, found,
            FileTree.lookup?_of_shallow directory] at noDirectory
        · cases text : Utf8.decode? content with
          | none => exact .inl (.illegible led (FileTree.lookup?_of_shallow file) text)
          | some source => exact .inr ⟨l, source, led, content, file, text⟩
  · obtain ⟨fault, far⟩ := FileTree.exists_canonical_eq_error seen short linkBound
    exact .inl (.lost far)

/-- **A candidate fails exactly if it cannot be scanned.** -/
theorem fails_iff (entry : w.Scannable c.location) :
    w.Fails c ↔ ∃ e, w.scanFile o c = .error e := by
  refine ⟨Fails.exists_scanFile_eq_error, ?_⟩
  rintro ⟨e, scanned⟩
  refine (fails_or_reads entry).resolve_right ?_
  rintro ⟨l, source, reads⟩
  cases (scanFile_eq_ok_iff.2 ⟨l, source, reads, rfl⟩).symm.trans scanned

/-- What is considered is seen. -/
theorem mem_listed_of_mem_considered {honorIgnoreFiles : Bool} {root : Location}
    {x : Location × Entry} (h : x ∈ w.considered honorIgnoreFiles root) :
    x ∈ w.tree.listed.entries := by
  have below : x ∈ w.tree.listed.below root := by
    rw [considered] at h
    split at h
    · exact (List.mem_filter.1 h).1
    · exact h
  exact (List.mem_filter.1 below).1

theorem scannable_of_mem_candidates {honorIgnoreFiles : Bool} {roots : List Location}
    {patterns : List (List Glob.Token)}
    (hc : c ∈ w.candidates honorIgnoreFiles roots patterns) : w.Scannable c.location := by
  simp only [candidates, List.mem_flatMap, List.mem_map, List.mem_filter, Bool.and_eq_true,
    Bool.not_eq_true'] at hc
  obtain ⟨root, -, pattern, -, l, ⟨⟨⟨l', e⟩, mem, rfl⟩, -, entry⟩, rfl⟩ := hc
  exact ⟨⟨e, mem_listed_of_mem_considered mem⟩, entry⟩

/-! ## Rows of candidates -/

/-- What comes of a row of candidates: the files that are read, in the order of the row, and
how many candidates fail. -/
inductive ComesTo (w : Workspace) (o : ScanOptions) :
    List Candidate → List ScannedFile → Nat → Prop
  | nil : ComesTo w o [] [] 0
  | failed {c : Candidate} {cs : List Candidate} {found : List ScannedFile} {failed : Nat} :
      w.Fails c → ComesTo w o cs found failed → ComesTo w o (c :: cs) found (failed + 1)
  | read {c : Candidate} {cs : List Candidate} {f : ScannedFile} {found : List ScannedFile}
      {failed : Nat} :
      w.scanFile o c = .ok f → ComesTo w o cs found failed →
      ComesTo w o (c :: cs) (f :: found) failed

/-- Every row of candidates comes to the files that are read from it, and the rest fail. -/
theorem comesTo_filesOf (entries : ∀ c ∈ cs, w.Scannable c.location) :
    w.ComesTo o cs (w.filesOf o cs) (cs.length - (w.filesOf o cs).length) := by
  induction cs with
  | nil => exact .nil
  | cons c cs ih =>
      obtain ⟨entry, entries⟩ := List.forall_mem_cons.1 entries
      have rest := ih entries
      cases scanned : w.scanFile o c with
      | error e =>
          have here : w.filesOf o (c :: cs) = w.filesOf o cs := by
            rw [filesOf, List.filterMap_cons, scanned]
            rfl
          -- the count is a difference: one candidate more, and not one file more
          have le : (w.filesOf o cs).length ≤ cs.length := List.length_filterMap_le _ _
          rw [here, List.length_cons, Nat.sub_add_comm le]
          exact .failed ((fails_iff entry).2 ⟨e, scanned⟩) rest
      | ok f =>
          have here : w.filesOf o (c :: cs) = f :: w.filesOf o cs := by
            rw [filesOf, List.filterMap_cons, scanned]
            rfl
          rw [here, List.length_cons, List.length_cons, Nat.add_sub_add_right]
          exact .read scanned rest

/-- No file is read at a path if all candidates that lead to it fail. -/
theorem not_same_of_fails {f : ScannedFile} (hf : f ∈ w.filesOf o cs)
    (fails : ∀ c ∈ cs, w.LeadsTo c p → w.Fails c) : ¬ f.path.Same p := by
  intro same
  obtain ⟨c, hc, scanned⟩ := mem_filesOf_iff.1 hf
  obtain ⟨l, source, reads, rfl⟩ := scanFile_eq_ok_iff.1 scanned
  exact (fails c hc ⟨l, reads.1, same⟩).not_reads reads

end Workspace

/-! ## Walks -/

namespace Scanner

/-- What a walk from some directories leaves in a graph, and what it counts. -/
structure Enters (s : Scanner) (w : Workspace) (roots : List Location) (found : List ScannedFile)
    (g g' : IncludeGraph) (summary : Summary) : Prop where
  /-- The files are those of the candidates that do not fail; those that fail are counted. -/
  outcome : w.ComesTo s.options (s.candidates w roots) found summary.failed
  /-- The graph is that of registering the files, to the last draw. -/
  graph : g' = g.replay (historyOf found)
  scanned : summary.scanned = found.length
  directoriesSkipped : summary.directoriesSkipped =
    ((s.sightings w roots).filter (· = .directory)).length
  includes : summary.includes = (found.flatMap ScannedFile.includes).length
  unresolved : summary.unresolved = (found.flatMap ScannedFile.unresolved).length
  /-- What no candidate is read at has the node it had, or that of an include. -/
  unread : ∀ n ∈ g'.nodes, (∀ c ∈ s.candidates w roots, w.LeadsTo c n.path → w.Fails c) →
    n ∈ g.nodes ∨
      n.scanned = false ∧ n.weight = 1 ∧ ∃ f ∈ found, ∃ q ∈ f.includes, q.Same n.path

/-- The failures of a walk are contained. -/
structure Contained (s : Scanner) (w : Workspace) (g : IncludeGraph) : Prop where
  /-- A walk fails for want of roots, or with the first root that leads to no directory. -/
  refused : ∀ e, (s.walk w g).2 = .error e ↔ s.options.roots = [] ∧ e = .noRoots ∨
    ∃ p, w.FirstInvalid s.options.roots p ∧ e = .invalidRoot p
  /-- It then leaves the graph as it is. -/
  untouched : ∀ e, (s.walk w g).2 = .error e → (s.walk w g).1 = g
  /-- All later steps answer as if there had been no walk. -/
  forgotten : ∀ e, (s.walk w g).2 = .error e → ∀ later,
    g.run (.walk s w :: later) = ((g.run later).1, some (.error e) :: (g.run later).2)
  /-- A walk that succeeds enters what can be read and counts what fails. -/
  entered : ∀ summary, (s.walk w g).2 = .ok summary → ∃ roots found,
    List.Forall₂ w.IsRoot s.options.roots roots ∧
      s.Enters w roots found g (s.walk w g).1 summary

/-- What a walk from known roots enters. -/
theorem enters_of_coherent {g : IncludeGraph} (h : g.Coherent) (s : Scanner) (w : Workspace)
    (roots : List Location) :
    s.Enters w roots (s.found w roots) g (g.replay (historyOf (s.found w roots)))
      (s.count w roots) where
  outcome := by
    rw [count_eq]
    exact Workspace.comesTo_filesOf fun c => Workspace.scannable_of_mem_candidates
  graph := rfl
  scanned := by rw [count_eq]
  directoriesSkipped := by rw [count_eq]
  includes := by rw [count_eq]
  unresolved := by rw [count_eq]
  unread := by
    intro n hn fails
    have unregistered : ∀ r ∈ historyOf (s.found w roots), ¬ r.1.Same n.path := by
      intro r hr
      obtain ⟨f, hf, rfl⟩ := List.mem_map.1 hr
      exact Workspace.not_same_of_fails hf fails
    refine (h.mem_of_mem_replay unregistered hn).imp_right ?_
    rintro ⟨unscanned, weight, r, hr, included⟩
    obtain ⟨f, hf, rfl⟩ := List.mem_map.1 hr
    exact ⟨unscanned, weight, f, hf, included⟩

end Scanner

/-- **Failures are contained.**  In a graph of any history, a walk that is refused, for the
first of its roots that is no directory or for want of any, has not happened for the graph; and
a walk that succeeds leaves what registering its files leaves, so that nothing but a count is
left of the candidates that fail. -/
theorem IncludeGraph.Reachable.contained {options : GraphOptions} {g : IncludeGraph}
    (h : Reachable options g) (s : Scanner) (w : Workspace) : s.Contained w g where
  refused := by
    intro e
    rw [Scanner.walk_eq_error_iff, Scanner.rootsOf_eq_error_iff]
  untouched := by
    intro e fails
    rw [Scanner.walk_of_error (Scanner.walk_eq_error_iff.1 fails)]
  forgotten := by
    intro e fails later
    have walked : g.perform (.walk s w) = (g, some (.error e)) := by
      rw [IncludeGraph.perform, Scanner.walk_of_error (Scanner.walk_eq_error_iff.1 fails)]
    rw [run_cons, walked]
  entered := by
    intro summary succeeds
    cases located : Scanner.rootsOf w s.options.roots with
    | error e =>
        rw [Scanner.walk_of_error located] at succeeds
        cases succeeds
    | ok roots =>
        rw [Scanner.walk_of_ok located] at succeeds ⊢
        obtain rfl := Except.ok.inj succeeds
        exact ⟨roots, s.found w roots, (Scanner.rootsOf_eq_ok_iff.1 located).2,
          Scanner.enters_of_coherent h.coherent s w roots⟩

namespace Sample

/-- A source that can be read and includes one that cannot, with links to the latter, to itself
and to nowhere beside them. -/
def damaged : Workspace where
  tree := {
    entries := [(top, .directory),
      (top ++ [Utf8.encode "a.c"], .file (Utf8.encode "#include \"b.c\"\n")),
      (top ++ [Utf8.encode "b.c"], .file [0xff, 0xfe, 0x00, 0x9f]),
      (top ++ [Utf8.encode "c.c"], .link (Path.ofString "b.c")),
      (top ++ [Utf8.encode "d.c"], .link (Path.ofString "d.c")),
      (top ++ [Utf8.encode "e.c"], .link (Path.ofString "none.c"))]
    ascending := by decide
    named := by decide
    rooted := by decide }
  directory := []

/-- A scanner of the damaged directory. -/
def salvage : Scanner :=
  ⟨⟨[Path.ofString "/r"], ["*.c"], [], false⟩, [pattern]⟩

/-- The same with a file among its roots, not as the first one. -/
def astray : Scanner :=
  salvage.withRoots [Path.ofString "/r", Path.ofString "/r/b.c", Path.ofString "/r"]

/-- A name in the damaged directory, as a candidate. -/
def wreck (name : String) : Candidate :=
  ⟨top ++ [Utf8.encode name], top⟩

theorem scanFile_salvage : damaged.scanFile salvage.options (wreck "a.c") =
    .ok ⟨(wreck "a.c").location.toPath, [Path.ofString "/r/b.c"], []⟩ := by
  have tokens : Directive.tokens "#include \"b.c\"\n" = ["b.c"] := by cbv
  refine Workspace.scanFile_eq_ok_iff.2 ⟨_, _, ⟨by cbv, _, rfl, Utf8.decode?_encode _⟩, ?_⟩
  rw [tokens]
  cbv

/-- What fails is the file without a text, and what is linked to it, to itself and to nowhere. -/
theorem fails_wreck : ∀ name ∈ ["b.c", "c.c", "d.c", "e.c"], damaged.Fails (wreck name) := by
  have file : damaged.tree.canonical linkBound [] (wreck "b.c").location =
      .ok (wreck "b.c").location := by cbv
  have link : damaged.tree.canonical linkBound [] (wreck "c.c").location =
      .ok (wreck "b.c").location := by cbv
  have circle : damaged.tree.canonical linkBound [] (wreck "d.c").location =
      .error .tooManyLinks := by cbv
  have nowhere : damaged.tree.canonical linkBound [] (wreck "e.c").location =
      .error .notFound := by cbv
  simp only [List.forall_mem_cons]
  exact ⟨.illegible file rfl (by decide), .illegible link rfl (by decide), .lost circle,
    .lost nowhere, List.forall_mem_nil _⟩

theorem count_salvage : salvage.count damaged [top] = ⟨1, 4, 0, 1, 0⟩ := by
  have sightings : salvage.sightings damaged [top] =
      ["a.c", "b.c", "c.c", "d.c", "e.c"].map fun name => .candidate (wreck name) := by cbv
  have candidates : salvage.candidates damaged [top] =
      ["a.c", "b.c", "c.c", "d.c", "e.c"].map wreck := by
    rw [Scanner.candidates_eq_filterMap, sightings]
    rfl
  have refused : ∀ name ∈ ["b.c", "c.c", "d.c", "e.c"],
      ∃ e, damaged.scanFile salvage.options (wreck name) = .error e :=
    fun name mem => (fails_wreck name mem).exists_scanFile_eq_error
  simp only [List.forall_mem_cons] at refused
  obtain ⟨⟨_, b⟩, ⟨_, c⟩, ⟨_, d⟩, ⟨_, e⟩, -⟩ := refused
  rw [Scanner.count, sightings, candidates]
  simp only [List.map_cons, List.map_nil, scanFile_salvage, b, c, d, e]
  rfl

/-- One source of the damaged directory is read and four candidates fail.  A walk after it that
is given a file for a root, between good ones, finds and leaves the graph of the first. -/
theorem contained_damaged : ∃ g,
    salvage.walk damaged (IncludeGraph.empty GraphOptions.default) = (g, .ok ⟨1, 4, 0, 1, 0⟩) ∧
    salvage.Contained damaged (IncludeGraph.empty GraphOptions.default) ∧
    astray.walk damaged g = (g, .error (.invalidRoot (Path.ofString "/r/b.c"))) ∧
    astray.Contained damaged g := by
  have located : Scanner.rootsOf damaged salvage.options.roots = .ok [top] := by cbv
  have refused : Scanner.rootsOf damaged astray.options.roots =
      .error (.invalidRoot (Path.ofString "/r/b.c")) := by cbv
  have start : IncludeGraph.Reachable GraphOptions.default
    (IncludeGraph.empty GraphOptions.default) := .empty
  have walked := Scanner.walk_of_ok located (IncludeGraph.empty GraphOptions.default)
  rw [count_salvage] at walked
  have reachable := start.walk salvage damaged
  rw [walked] at reachable
  exact ⟨_, walked, start.contained salvage damaged, Scanner.walk_of_error refused _,
    reachable.contained astray damaged⟩

end Sample

end IncludeAtlas
