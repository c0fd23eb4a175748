import IncludeAtlas.Proofs.Graph.Growth
import IncludeAtlas.Proofs.Path.Order
import IncludeAtlas.Proofs.Path.Set
import IncludeAtlas.Proofs.Scan.Grounding
import IncludeAtlas.Proofs.Text.Assembly
import IncludeAtlas.Proofs.Text.Utf8

/-!
# The set of includes

Tokens are read in one order and their paths are kept in another one.  Many tokens may stand for
one path, and it matters which of them is read first, since its spelling is the one that a graph
shows.  This module says which list of paths comes out, without saying how it is made.

## Main Definitions

* `Workspace.IsIncludeSet`: the one list of paths that some tokens come to
* `IncludeGraph.TellsApart`: a graph takes paths for different exactly if they are

## Main Results

* `Workspace.isIncludeSet_ofList`: resolved tokens form the set
* `Workspace.IsIncludeSet.unique`: there is no other one
* `Workspace.includes_canonical`: the includes of a file are the set of its tokens, and every graph
  tells them apart

## What is load-bearing

A set keeps what was put in first (`PathSet.mem_ofList_iff`), and tokens are put in in the order of
their characters, which is that of their bytes (`Utf8.encode_lt_encode`).  The order of the paths
has no part in the choice of a spelling.
-/

namespace IncludeAtlas

namespace Workspace

variable {w : Workspace} {directories : List Path} {tokens : List String}
  {included included' : List Path}

/-- A list has the paths that some tokens stand for, each once and in ascending order, in the
spelling that the least token gives it. -/
structure IsIncludeSet (w : Workspace) (directories : List Path) (tokens : List String)
    (included : List Path) : Prop where
  /-- Components decide which path comes first. -/
  ascending : included.Pairwise Path.Before
  /-- There is one path for all spellings of what a token stands for. -/
  once : ∀ t ∈ tokens, ∀ p, w.Denotes directories (.ofString t) p →
    ∃! q, q ∈ included ∧ q.Same p
  /-- A path is spelled as some token has it, and that token is the least in bytes of those that
  stand for the path. -/
  spelled : ∀ q ∈ included, ∃ t ∈ tokens, w.Denotes directories (.ofString t) q ∧
    ∀ t' ∈ tokens, ∀ p, w.Denotes directories (.ofString t') p → p.Same q →
      Utf8.encode t ≤ Utf8.encode t'

/-- **Resolved tokens form the set**, if they are resolved in ascending order. -/
theorem isIncludeSet_ofList (w : Workspace) (directories : List Path)
    (ordered : tokens.Pairwise (· < ·)) :
    w.IsIncludeSet directories tokens
      (PathSet.ofList ((tokens.map Path.ofString).map (w.resolve directories))) where
  ascending := List.Pairwise.imp Path.key_lt_iff.1 (Ordered.ascending_ofList _)
  once := by
    intro t ht p denoted
    obtain ⟨q, mem, same⟩ := (w.isIncludeList_ofList directories tokens).complete t ht p denoted
    refine ⟨q, ⟨mem, same⟩, ?_⟩
    rintro q' ⟨mem', same'⟩
    exact PathSet.eq_of_same mem' mem (same'.trans same.symm)
  spelled := by
    intro q hq
    -- no token before the one that gives the spelling stands for the path
    obtain ⟨before, after, split, first⟩ := PathSet.mem_ofList_iff.1 hq
    rw [List.map_map] at split
    obtain ⟨earlier, rest, rfl, rfl, split'⟩ := List.map_eq_append_iff.1 split
    obtain ⟨t, later, rfl, rfl, -⟩ := List.map_eq_cons_iff.1 split'
    have mem : t ∈ earlier ++ t :: later :=
      List.mem_append_right earlier List.mem_cons_self
    refine ⟨t, mem, w.denotes_resolve directories (.ofString t), fun t' mem' p denoted same => ?_⟩
    rw [denotes_iff] at denoted
    subst denoted
    rcases List.mem_append.1 mem' with mem' | mem'
    · exact absurd same (first _ (List.mem_map_of_mem mem'))
    · rcases List.mem_cons.1 mem' with rfl | mem'
      · exact List.le_refl _
      · have lt : t < t' := (List.pairwise_cons.1 (List.pairwise_append.1 ordered).2.1).1 t' mem'
        exact List.le_of_lt (Utf8.encode_lt_encode lt)

/-- **There is no other set.** -/
theorem IsIncludeSet.unique (h : w.IsIncludeSet directories tokens included)
    (h' : w.IsIncludeSet directories tokens included') : included = included' := by
  have within : ∀ {some other}, w.IsIncludeSet directories tokens some →
      w.IsIncludeSet directories tokens other → ∀ q ∈ some, q ∈ other := by
    intro some other hs ho q hq
    obtain ⟨t, ht, denoted, least⟩ := hs.spelled q hq
    obtain ⟨q', ⟨hq', same⟩, -⟩ := ho.once t ht q denoted
    obtain ⟨t', ht', denoted', least'⟩ := ho.spelled q' hq'
    -- each of the two tokens is the least, so they are one
    have eq : Utf8.encode t = Utf8.encode t' :=
      List.le_antisymm (least t' ht' q' denoted' same) (least' t ht q denoted same.symm)
    obtain rfl : t = t' := by
      have read := congrArg Utf8.decode? eq
      rw [Utf8.decode?_encode, Utf8.decode?_encode] at read
      exact Option.some.inj read
    rw [denotes_iff] at denoted denoted'
    rwa [denoted, ← denoted']
  refine h.ascending.eq_of_mem_iff h'.ascending fun q => ?_
  exact ⟨within h h' q, within h' h q⟩

end Workspace

namespace IncludeGraph

/-- What a graph makes of a file and the paths that it includes. -/
structure TellsApart (g : IncludeGraph) (file : Path) (included : List Path) : Prop where
  /-- Mentioned one after the other, two paths are one node exactly if neither is before the
  other. -/
  one_node_iff : ∀ (p q : Path) (weight later : Nat),
    ((g.mention p weight).2.mention q later).1 = (g.mention p weight).1 ↔
      ¬ p.Before q ∧ ¬ q.Before p
  /-- Each include gets an edge, and no two of these edges join the same nodes, whichever way they
  point. -/
  edges : ∃ added, (g.register file included).edges = g.edges ++ added ∧
    added.length = included.length ∧
    added.Pairwise fun e e' => s(e.source, e.target) ≠ s(e'.source, e'.target)

/-- A coherent graph tells different paths apart. -/
theorem Coherent.tellsApart {g : IncludeGraph} (h : g.Coherent) (file : Path)
    {included : List Path} (apart : included.Pairwise fun p q => ¬ p.Same q) :
    g.TellsApart file included where
  one_node_iff := by
    intro p q weight later
    rw [h.mention_mention_fst_eq_iff, Path.same_iff_not_before]
  edges := h.exists_edges_register file apart

end IncludeGraph

/-- **The includes of a file are canonical.**  A candidate that is scanned leads to a file with a
text.  Its includes are the one list of what the tokens of that text stand for, in ascending order
and each in the spelling of the least token.  Paths have the same components exactly if neither is
before the other, and exactly then they are one node of a graph, whatever its history.  So
registering the file never joins two nodes twice. -/
theorem Workspace.includes_canonical {w : Workspace} {options : ScanOptions} {c : Candidate}
    {f : ScannedFile} (h : w.scanFile options c = .ok f) :
    ∃ l source, w.Reads c l source ∧ f.path = l.toPath ∧
      (∀ included, w.IsIncludeSet (searchDirectories options c) (Directive.tokens source) included ↔
        included = f.includes) ∧
      (∀ p q : Path, p.Same q ↔ ¬ p.Before q ∧ ¬ q.Before p) ∧
      ∀ graphOptions g, IncludeGraph.Reachable graphOptions g → g.TellsApart f.path f.includes := by
  obtain ⟨l, source, reads, rfl⟩ := scanFile_eq_ok_iff.1 h
  have isSet := w.isIncludeSet_ofList (searchDirectories options c)
    (Directive.ascending_tokens source)
  refine ⟨l, source, reads, rfl, fun included => ?_, fun _ _ => Path.same_iff_not_before, ?_⟩
  · constructor
    · exact fun other => other.unique isSet
    · rintro rfl
      exact isSet
  · intro graphOptions g reachable
    exact reachable.coherent.tellsApart l.toPath (PathSet.pairwise_not_same _)

namespace Sample

/-- The text of a source that includes one header under two spellings, and names that agree up to a
hyphen, a slash or a leading dot. -/
def hyphenText : String :=
  "#include \"a/b\"\n#include \"a-b\"\n#include \"h\"\n#include \"a//b\"\n" ++
    "#include \"./a-b\"\n#include \"./h\"\n"

/-- The source in a directory with the header. -/
def hyphens : Workspace where
  tree := {
    entries := [(top, .directory), (selfish, .file (Utf8.encode hyphenText)),
      (top ++ [Utf8.encode "h"], .file [])]
    ascending := by decide
    named := by decide
    rooted := by decide }
  directory := []

/-- What the source includes, and what of it is unresolved. -/
def hyphenScan : ScannedFile where
  path := selfish.toPath
  includes := ["/r/h", "./a-b", "a//b", "a-b"].map Path.ofString
  unresolved := ["./a-b", "a-b", "a//b", "a/b"].map Path.ofString

/-- The header comes first.  A leading dot is before names, and a slash before a hyphen. -/
theorem scanFile_hyphens : hyphens.scanFile selfishScan ⟨selfish, top⟩ = .ok hyphenScan := by
  have tokens : Directive.tokens hyphenText = ["./a-b", "./h", "a-b", "a//b", "a/b", "h"] := by
    cbv
  have reads : hyphens.Reads ⟨selfish, top⟩ selfish hyphenText :=
    ⟨by cbv, Utf8.encode hyphenText, rfl, Utf8.decode?_encode hyphenText⟩
  refine Workspace.scanFile_eq_ok_iff.2 ⟨selfish, hyphenText, reads, ?_⟩
  rw [tokens]
  cbv

/-- The six tokens of the source are four includes. -/
theorem includes_canonical_hyphens :
    hyphens.scanFile selfishScan ⟨selfish, top⟩ = .ok hyphenScan ∧
    ∃ l source, hyphens.Reads ⟨selfish, top⟩ l source ∧ hyphenScan.path = l.toPath ∧
      (∀ included, hyphens.IsIncludeSet (Workspace.searchDirectories selfishScan ⟨selfish, top⟩)
        (Directive.tokens source) included ↔ included = hyphenScan.includes) ∧
      (∀ p q : Path, p.Same q ↔ ¬ p.Before q ∧ ¬ q.Before p) ∧
      ∀ graphOptions g, IncludeGraph.Reachable graphOptions g →
        g.TellsApart hyphenScan.path hyphenScan.includes :=
  ⟨scanFile_hyphens, Workspace.includes_canonical scanFile_hyphens⟩

end Sample

end IncludeAtlas
