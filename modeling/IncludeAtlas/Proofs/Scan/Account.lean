import IncludeAtlas.Proofs.Scan.Failure

/-!
# What a walk counts

A walk counts while it looks around, and again while it enters what it has read.  The counts
account for everything that it comes by and for everything that it leaves: no entry with a
matching name is left out or counted twice, and no edge, node or weight is without a count that
covers it.

## Main Definitions

* `Scanner.visits`: the entries that a walk comes by, root by root and pattern by pattern
* `Scanner.Accounts`: the counts of a walk account for what it does

## Main Results

* `Scanner.walk_accounts`: they do, in a graph of any history
-/

namespace IncludeAtlas

namespace Scanner

variable {s : Scanner} {w : Workspace} {roots : List Location}

/-- The entries that a walk comes by below some directories, root by root and pattern by pattern,
each with the pattern that its name is held against. -/
def visits (s : Scanner) (w : Workspace) (roots : List Location) :
    List (List Glob.Token × Location) :=
  roots.flatMap fun root => s.patterns.flatMap fun pattern =>
    (w.considered s.options.honorIgnoreFiles root).map fun e => (pattern, e.1)

/-- A visit to an entry with a matching name is a sighting. -/
theorem length_sightings (s : Scanner) (w : Workspace) (roots : List Location) :
    (s.sightings w roots).length =
      ((s.visits w roots).filter fun v => Workspace.nameMatches v.1 v.2).length := by
  simp only [sightings, visits, Workspace.sightings, List.filter_flatMap, List.length_flatMap,
    List.length_map, List.filter_map, Function.comp_def]

/-- What is seen is a candidate or a directory. -/
theorem length_candidates_add_directories (seen : List Sighting) :
    (seen.filterMap candidate?).length + (seen.filter (· = .directory)).length = seen.length := by
  induction seen with
  | nil => rfl
  | cons sighting seen ih =>
      cases sighting with
      | candidate c =>
          have kept : candidate? (.candidate c) = some c := rfl
          rw [List.filterMap_cons_some kept, List.filter_cons_of_neg (by simp), List.length_cons,
            List.length_cons, ← ih]
          omega
      | directory =>
          have dropped : candidate? .directory = none := rfl
          rw [List.filterMap_cons_none dropped, List.filter_cons_of_pos (by simp), List.length_cons,
            List.length_cons, ← ih]
          omega

/-- The counts of a walk account for what it comes by, and for what it leaves in a graph. -/
structure Accounts (s : Scanner) (w : Workspace) (roots : List Location) (g g' : IncludeGraph)
    (summary : Summary) : Prop where
  /-- Every visit to an entry with a matching name is counted once: as a file that is scanned, a
  candidate that fails, or a directory. -/
  visits : summary.scanned + summary.failed + summary.directoriesSkipped =
    ((s.visits w roots).filter fun v => Workspace.nameMatches v.1 v.2).length
  /-- Every include is an edge. -/
  edges : g'.edgeCount = g.edgeCount + summary.includes
  /-- A new node is that of a file that is scanned, or of an include. -/
  nodes : g'.nodeCount ≤ g.nodeCount + summary.scanned + summary.includes
  /-- A node that becomes scanned is that of a file that is scanned. -/
  scanned : g'.scannedNodes.length ≤ g.scannedNodes.length + summary.scanned
  /-- The scanned nodes become no heavier than there are includes. -/
  weight_le : g'.scannedWeight ≤ g.scannedWeight + summary.includes
  /-- From a graph without scanned nodes, such as the empty one, they become exactly as heavy if no
  two candidates are read as the same file and no file has 2^32 includes. -/
  weight_eq : g.scannedNodes = [] →
    ((s.found w roots).Pairwise fun f f' => ¬ f.path.Same f'.path) →
    (∀ f ∈ s.found w roots, f.includes.length < UInt32.size) →
    g'.scannedWeight = summary.includes

/-- **The counts of a walk account for everything it did**, in a graph of any history. -/
theorem walk_accounts {options : GraphOptions} {g g' : IncludeGraph} {summary : Summary}
    (h : IncludeGraph.Reachable options g) (walked : s.walk w g = (g', .ok summary)) :
    ∃ roots, List.Forall₂ w.IsRoot s.options.roots roots ∧ s.Accounts w roots g g' summary := by
  obtain ⟨roots, located, rfl, rfl⟩ := walk_eq_ok_iff.1 walked
  let found := s.found w roots
  have registrations : (historyOf found).length = (s.count w roots).scanned := by
    rw [count_eq, historyOf, List.length_map]
  have includes : ((historyOf found).flatMap Prod.snd).length = (s.count w roots).includes := by
    rw [count_eq, historyOf, List.flatMap_map]
  refine ⟨roots, (rootsOf_eq_ok_iff.1 located).2, ?_⟩
  constructor
  case visits =>
    have read := s.length_found_le w roots
    rw [← length_sightings, ← length_candidates_add_directories, ← candidates_eq_filterMap,
      count_eq]
    exact congrArg (· + _) (Nat.add_sub_cancel' read)
  case edges => rw [h.coherent.edgeCount_replay, includes]
  case nodes =>
    rw [← registrations, ← includes]
    exact g.nodeCount_replay_le _
  case scanned =>
    rw [← registrations]
    exact h.coherent.length_scannedNodes_replay_le _
  case weight_le =>
    rw [← includes]
    exact h.coherent.scannedWeight_replay_le _
  case weight_eq =>
    intro none different short
    have nothing : g.scannedWeight = 0 := by rw [IncludeGraph.scannedWeight, none]; rfl
    rw [← includes, h.coherent.scannedWeight_replay, nothing, Nat.zero_add]
    · intro r _ n hn
      rw [none] at hn
      cases hn
    · exact List.pairwise_map.2 different
    · intro r hr
      obtain ⟨f, hf, rfl⟩ := List.mem_map.1 hr
      exact Nat.le_sub_one_of_lt (short f hf)

end Scanner

/-- One source of the damaged directory is read and four candidates fail, and the counts account
for all five. -/
theorem Sample.walk_accounts_damaged : ∃ g roots,
    salvage.walk damaged (IncludeGraph.empty GraphOptions.default) = (g, .ok ⟨1, 4, 0, 1, 0⟩) ∧
    List.Forall₂ damaged.IsRoot salvage.options.roots roots ∧
    salvage.Accounts damaged roots (IncludeGraph.empty GraphOptions.default) g
      ⟨1, 4, 0, 1, 0⟩ := by
  have located : Scanner.rootsOf damaged salvage.options.roots = .ok [top] := by cbv
  have walked := Scanner.walk_of_ok (s := salvage) located
    (IncludeGraph.empty GraphOptions.default)
  rw [count_salvage] at walked
  obtain ⟨roots, accounts⟩ := Scanner.walk_accounts .empty walked
  exact ⟨_, roots, walked, accounts⟩

end IncludeAtlas
