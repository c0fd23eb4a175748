import IncludeAtlas.Proofs.FileTree.Canonical
import IncludeAtlas.Scan.File

/-!
# What a candidate includes

What it means to read a candidate, for a token to stand for a path, and for a list to be
the includes of a text, each said without the functions that compute it.

## Main Definitions

* `Workspace.Reads`: a candidate leads to a file that holds a text
* `Workspace.Denotes`: a token stands for a path
* `Workspace.IsIncludeList`: a list of paths is what a text includes

## Main Results

* `Workspace.denotes_iff`: the search finds what a token stands for
* `Workspace.isIncludeList_ofList`: resolved tokens form a list of includes
* `Workspace.scanFile_eq_ok_iff`: a candidate is scanned exactly if it can be read
-/

namespace IncludeAtlas

namespace Workspace

variable {w : Workspace} {directories : List Path} {token p q : Path}

/-- A candidate leads to a file at a location, over entries that can be looked up under their
own paths, and the content is a text. -/
def Reads (w : Workspace) (c : Candidate) (l : Location) (source : String) : Prop :=
  w.tree.canonical linkBound [] c.location = .ok l ∧
    ∃ content, w.tree.shallow.lookup? l = some (.file content) ∧
      Utf8.decode? content = some source

/-- A token stands for the file under it in the first of some directories that has one, and
for itself if none has. -/
inductive Denotes (w : Workspace) (directories : List Path) (token : Path) : Path → Prop
  | found {before after : List Path} {d : Path} {l : Location} :
      directories = before ++ d :: after →
      (∀ e ∈ before, w.file? (e.join token) = none) →
      w.file? (d.join token) = some l →
      Denotes w directories token l.toPath
  | missing :
      (∀ d ∈ directories, w.file? (d.join token) = none) →
      Denotes w directories token token

/-- A list of paths is what the tokens of a text stand for: all of it and nothing else, in
strictly ascending order. -/
structure IsIncludeList (w : Workspace) (directories : List Path) (tokens : List String)
    (included : List Path) : Prop where
  ascending : included.Pairwise fun p q => p.key < q.key
  complete : ∀ t ∈ tokens, ∀ p, w.Denotes directories (.ofString t) p →
    ∃ q ∈ included, q.Same p
  sound : ∀ q ∈ included, ∃ t ∈ tokens, w.Denotes directories (.ofString t) q

/-! ## Tokens -/

theorem denotes_resolve (w : Workspace) (directories : List Path) (token : Path) :
    w.Denotes directories token (w.resolve directories token) := by
  rw [resolve]
  cases found : w.search? directories token with
  | none => exact .missing (List.findSome?_eq_none_iff.1 found)
  | some l =>
      obtain ⟨before, d, after, split, here, earlier⟩ := List.findSome?_eq_some_iff.1 found
      exact .found split earlier here

/-- **A token stands for what the search finds**, and for nothing else. -/
theorem denotes_iff : w.Denotes directories token p ↔ p = w.resolve directories token := by
  constructor
  · intro h
    rw [resolve]
    cases h with
    | found split earlier here =>
        rw [search?, List.findSome?_eq_some_iff.2 ⟨_, _, _, split, here, earlier⟩]
    | missing nowhere =>
        rw [search?, List.findSome?_eq_none_iff.2 nowhere]
  · rintro rfl
    exact w.denotes_resolve directories token

/-- The set of the resolved tokens is a list of their includes. -/
theorem isIncludeList_ofList (w : Workspace) (directories : List Path) (tokens : List String) :
    w.IsIncludeList directories tokens
      (PathSet.ofList ((tokens.map Path.ofString).map (w.resolve directories))) where
  ascending := Ordered.ascending_ofList _
  complete := by
    intro t ht p denoted
    have mem : p ∈ (tokens.map Path.ofString).map (w.resolve directories) := by
      rw [denotes_iff.1 denoted]
      exact List.mem_map_of_mem (List.mem_map_of_mem ht)
    obtain ⟨q, hq, eq⟩ := Ordered.exists_mem_ofList Path.key mem
    exact ⟨q, hq, Path.key_eq_iff.1 eq⟩
  sound := by
    intro q hq
    obtain ⟨token, mem, rfl⟩ := List.mem_map.1 (Ordered.mem_of_mem_ofList hq)
    obtain ⟨t, ht, rfl⟩ := List.mem_map.1 mem
    exact ⟨t, ht, w.denotes_resolve directories _⟩

/-! ## Candidates -/

/-- The tokens of a settled location can be had exactly if it holds a text. -/
theorem tokensOf_eq_ok_iff {l : Location} {tokens : List String}
    (h : w.tree.shallow.Settled l) :
    w.tokensOf l.toPath = .ok tokens ↔ ∃ source content,
      w.tree.shallow.lookup? l = some (.file content) ∧ Utf8.decode? content = some source ∧
        tokens = Directive.tokens source := by
  rw [tokensOf]
  rcases h with directory | ⟨content, file⟩
  · simp [readText_toPath_directory directory, directory]
  · rw [readText_toPath file]
    cases text : Utf8.decode? content with
    | none => simp [file, text]
    | some source => simp [file, text, eq_comm]

/-- **A candidate is scanned exactly if it can be read**, and then it is the file that it
leads to, with the resolved tokens of its text. -/
theorem scanFile_eq_ok_iff {options : ScanOptions} {c : Candidate} {f : ScannedFile} :
    w.scanFile options c = .ok f ↔ ∃ l source, w.Reads c l source ∧ f =
      { path := l.toPath
        includes := PathSet.ofList (((Directive.tokens source).map Path.ofString).map
          (w.resolve (searchDirectories options c)))
        unresolved := ((Directive.tokens source).map Path.ofString).filter fun t =>
          w.search? (searchDirectories options c) t = none } := by
  rw [scanFile]
  simp only [Reads]
  cases led : w.tree.canonical linkBound [] c.location with
  | error fault => simp
  | ok l =>
      have settled : w.tree.shallow.Settled l := FileTree.settled_of_canonical led
      constructor
      · intro h
        cases read : w.tokensOf l.toPath with
        | error e =>
            simp only [read] at h
            cases h
        | ok ts =>
            obtain ⟨source, content, file, text, rfl⟩ := (tokensOf_eq_ok_iff settled).1 read
            simp only [read] at h
            exact ⟨l, source, ⟨rfl, content, file, text⟩, (Except.ok.inj h).symm⟩
      · rintro ⟨l', source, ⟨eq, content, file, text⟩, rfl⟩
        obtain rfl := Except.ok.inj eq
        have read := (tokensOf_eq_ok_iff settled).2 ⟨source, content, file, text, rfl⟩
        simp only [read]
        rfl

end Workspace

end IncludeAtlas
