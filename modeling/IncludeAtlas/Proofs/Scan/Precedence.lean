import IncludeAtlas.Proofs.Path.Normal
import IncludeAtlas.Proofs.Scan.Landing

/-!
# Which directory comes first

A token is looked for below one directory after the other.  This module says what becomes of a
search when directories are added, repeated or spelled in another way, and when a token is its own
result.

## Main Definitions

* `Workspace.Precedence`: what the row of directories has to do with the result

## Main Results

* `Workspace.search?_append`: a search below the directories of two rows
* `Workspace.file?_join_directory`: below the working directory a token leads to the file that it
  leads to by itself
* `Workspace.precedence`: the laws of the search

## What is load-bearing

The working directory is a directory of the tree and no link is on the way to it.  So its path,
however it is spelled, costs none of the links that may be followed, and what is left of them for
the token is the same with the path as without it.

## Design notes

A token is added to the spelling of a directory, which may make it longer than any path that can be
opened.  That does not matter here, since what is searched is followed name by name.  The path of
the working directory itself has to be short enough, as it is one of the places on the way.  An
empty token leads nowhere by itself, and below a directory it leads to the directory, which is no
file.
-/

namespace IncludeAtlas

namespace Workspace

variable {w : Workspace} {directories directories' others : List Path} {token d : Path}
  {l : Location}

/-! ## Rows of directories -/

/-- **Below the directories of two rows** a token leads where it leads below the first row, or else
where it leads below the second one. -/
theorem search?_append (w : Workspace) (directories others : List Path) (token : Path) :
    w.search? (directories ++ others) token =
      (w.search? directories token).or (w.search? others token) :=
  List.findSome?_append

/-- Directories below which the token leads to no file are passed over. -/
theorem search?_append_of_none (none : w.search? directories token = none) :
    w.search? (directories ++ others) token = w.search? others token := by
  rw [search?_append, none, Option.none_or]

/-- What is found is found before any directory that comes after it. -/
theorem search?_append_of_some (found : w.search? directories token = some l) :
    w.search? (directories ++ others) token = some l := by
  rw [search?_append, found, Option.some_or]

/-- Directories that have been searched need not be searched again. -/
theorem search?_append_of_subset (again : directories' ⊆ directories) :
    w.search? (directories ++ directories') token = w.search? directories token := by
  rw [search?_append]
  cases found : w.search? directories token with
  | some l => rfl
  | none =>
      rw [Option.none_or]
      rw [search?_eq_none_iff] at found ⊢
      exact fun d hd => found d (again hd)

/-! ## The working directory -/

/-- What is made canonical is followed from where it starts, unless there is nothing to follow. -/
theorem canonicalize_eq_ok_iff_canonical {p : Path} :
    w.canonicalize p = .ok l ↔ 0 ∉ p.bytes ∧ p.bytes ≠ [] ∧
      w.tree.canonical linkBound (p.startFrom w.directory) p.segments = .ok l := by
  rw [canonicalize_eq_ok_iff, FileTree.canonical_eq_ok_iff, FileTree.resolve_eq_ok_iff]

/-- Below the working directory a token is followed from there, however the path of the directory
is spelled. -/
theorem canonicalize_join_directory
    (directory : w.tree.shallow.lookup? w.directory = some .directory)
    (same : d.Same w.directory.toPath) (relative : token.isAbsolute = false) :
    w.canonicalize (d.join token) = .ok l ↔
      0 ∉ token.bytes ∧ w.tree.canonical linkBound w.directory token.segments = .ok l := by
  have settled : w.tree.shallow.Settled w.directory := .inl directory
  obtain ⟨absolute, rest, cut, names⟩ := segments_of_same settled same
  have below : d.bytes ≠ [] := Path.bytes_ne_nil absolute
  have absolute := Path.isAbsolute_join absolute relative
  -- the path of the directory leads to it without a link, and the token goes on from there
  obtain ⟨front, segments, meaning⟩ := Path.exists_segments_join below relative
  have led : w.tree.shallow.resolve linkBound [] (d.join token).segments =
      w.tree.shallow.resolve linkBound w.directory token.segments := by
    rw [segments]
    refine FileTree.resolve_of_names_append token.segments directory ?_
    rw [meaning, cut, ← names]
    rfl
  have noNul : 0 ∉ d.bytes := by
    intro nul
    rcases spellingFault?_of_same settled same with fault | fault <;>
      simp [spellingFault?, nul] at fault
  have nul : 0 ∈ (d.join token).bytes ↔ 0 ∈ token.bytes := by
    rw [Path.mem_bytes_join_iff (by decide) below relative, or_iff_right noNul]
  rw [canonicalize_eq_ok_iff_canonical, nul, and_iff_right (Path.bytes_ne_nil absolute),
    Path.startFrom, if_pos absolute, FileTree.canonical_eq_ok_iff, led,
    FileTree.canonical_eq_ok_iff]

/-- **Below the working directory** a token leads to the file that it leads to by itself. -/
theorem file?_join_directory (directory : w.tree.shallow.lookup? w.directory = some .directory)
    (same : d.Same w.directory.toPath) (token : Path) : w.file? (d.join token) = w.file? token := by
  by_cases absolute : token.isAbsolute = true
  · unfold Path.join
    rw [if_pos absolute]
  · rw [Bool.not_eq_true] at absolute
    ext l
    rw [file?_eq_some_iff, file?_eq_some_iff, canonicalize_join_directory directory same absolute]
    by_cases empty : token = ⟨[]⟩
    · -- behind the directory stands a slash and nothing more, and the directory is no file
      subst empty
      have here : w.tree.canonical linkBound w.directory [[]] = .ok w.directory := by
        simp [FileTree.canonical]
      refine iff_of_false ?_ ?_
      · rintro ⟨⟨-, led⟩, content, file⟩
        obtain rfl := Except.ok.inj (here.symm.trans led)
        cases directory.symm.trans file
      · rintro ⟨led, -⟩
        exact (canonicalize_eq_ok_iff_canonical.1 led).2.1 rfl
    · have nonempty : token.bytes ≠ [] := fun bytes => empty (congrArg Path.mk bytes)
      rw [canonicalize_eq_ok_iff_canonical, and_iff_right nonempty, Path.startFrom, absolute,
        if_neg Bool.false_ne_true]

/-! ## The laws -/

/-- A token is its own result if it leads nowhere, or if it is the path of a file. -/
theorem resolve_eq_token_iff (w : Workspace) (directories : List Path) (token : Path) :
    w.resolve directories token = token ↔ w.search? directories token = none ∨
      ∃ l content, w.tree.shallow.lookup? l = some (.file content) ∧ token = l.toPath := by
  unfold resolve
  cases found : w.search? directories token with
  | none => simp
  | some l =>
      obtain ⟨content, file⟩ := exists_file_of_search? found
      constructor
      · intro verbatim
        exact .inr ⟨l, content, file, verbatim.symm⟩
      · rintro (none | ⟨l', content', file', rfl⟩)
        · cases none
        · have ne : directories ≠ [] := by
            rintro rfl
            cases found
          -- the path of a file leads to the file
          have itself := ((fixed_of_file file').token w.directory directories ne).1
          obtain rfl := Option.some.inj (itself.symm.trans found)
          rfl

/-- What the row of directories has to do with the result of a search. -/
structure Precedence (w : Workspace) (token : Path) : Prop where
  /-- Below no directory nothing is found. -/
  nowhere : w.search? [] token = none
  /-- Below one directory the file is found that the token reaches there. -/
  alone : ∀ d l, w.search? [d] token = some l ↔ w.Reaches (d.join token) l
  /-- Below the directories of two rows that is found which is found below the first row, or else
  that which is found below the second one. -/
  append : ∀ directories others, w.search? (directories ++ others) token =
    (w.search? directories token).or (w.search? others token)
  /-- A directory below which the token leads nowhere, or to no file, hides nothing. -/
  passed : ∀ directories others,
    (∀ d ∈ directories, ∀ l content, w.canonicalize (d.join token) = .ok l →
      w.tree.lookup? l ≠ some (.file content)) →
    w.search? (directories ++ others) token = w.search? others token
  /-- Directories that are added at the end change nothing for a token that is found. -/
  kept : ∀ directories others l, w.search? directories token = some l →
    w.search? (directories ++ others) token = some l ∧
      w.resolve (directories ++ others) token = w.resolve directories token
  /-- Nor does a directory that comes once more, for any token. -/
  repeated : ∀ directories again others, again ⊆ directories →
    w.search? (directories ++ again ++ others) token = w.search? (directories ++ others) token
  /-- Below which directories an absolute token is looked for is no matter. -/
  absolute : token.isAbsolute = true → ∀ directories others, directories ≠ [] → others ≠ [] →
    w.search? directories token = w.search? others token
  /-- The empty path stands for the working directory, if that can be opened under its path, and
  however the path is spelled. -/
  working : w.tree.lookup? w.directory = some .directory → w.directory.Short →
    ∀ d, d.Same w.directory.toPath → ∀ before after,
      w.search? (before ++ d :: after) token = w.search? (before ++ ⟨[]⟩ :: after) token ∧
        w.resolve (before ++ d :: after) token = w.resolve (before ++ ⟨[]⟩ :: after) token
  /-- A token is its own result, letter by letter, if nothing is found or if it is the canonical
  path of a file that can be opened under it, and only then. -/
  verbatim : ∀ directories, w.resolve directories token = token ↔
    w.search? directories token = none ∨
      ∃ l content, w.tree.shallow.lookup? l = some (.file content) ∧ token = l.toPath

/-- **Which directory comes first.**  In every tree, from every directory and for every token, be it
empty, absolute or full of dots, a search is decided by the first directory that has a file for the
token. -/
theorem precedence (w : Workspace) (token : Path) : w.Precedence token where
  nowhere := rfl
  alone := by
    intro d l
    rw [search?_eq_some_iff]
    constructor
    · rintro ⟨before, e, after, split, -, reaches⟩
      obtain ⟨rfl, rfl, rfl⟩ : before = [] ∧ d = e ∧ after = [] := by
        cases before <;> simp_all
      exact reaches
    · intro reaches
      exact ⟨[], d, [], rfl, List.forall_mem_nil _, reaches⟩
  append := fun directories others => w.search?_append directories others token
  passed := by
    intro directories others noFile
    apply search?_append_of_none
    rw [search?_eq_none_iff]
    intro d hd l reaches
    obtain ⟨led, content, file⟩ := file?_eq_some_iff.1 (file?_eq_some_iff_reaches.2 reaches)
    exact noFile d hd l content led (FileTree.lookup?_of_shallow file)
  kept := by
    intro directories others l found
    have still : w.search? (directories ++ others) token = some l := search?_append_of_some found
    refine ⟨still, ?_⟩
    unfold resolve
    rw [still, found]
  repeated := by
    intro directories again others mem
    rw [search?_append, search?_append_of_subset mem, ← search?_append]
  absolute := by
    intro absolute directories others ne ne'
    rw [search?_of_isAbsolute absolute ne, search?_of_isAbsolute absolute ne']
  working := by
    intro there short d same before after
    have directory := FileTree.lookup?_shallow_eq_some_iff.2 ⟨there, short⟩
    have found : w.search? (before ++ d :: after) token =
        w.search? (before ++ ⟨[]⟩ :: after) token := by
      rw [search?_append, search?_append]
      unfold search?
      rw [List.findSome?_cons, List.findSome?_cons, file?_join_directory directory same token,
        Path.nil_join]
    refine ⟨found, ?_⟩
    unfold resolve
    rw [found]
  verbatim := fun directories => w.resolve_eq_token_iff directories token

end Workspace

namespace Sample

/-- In a tree full of links, from a directory with a link in it: a directory that lacks the file is
passed over, an absolute token leads to one place, and the path of the working directory may be
spelled with dots and slashes. -/
theorem precedence_winding :
    winding.search? ([Path.ofString "/"] ++ [Path.ofString "/d"]) (Path.ofString "x.h") =
        some [Utf8.encode "d", Utf8.encode "x.h"] ∧
    (Path.ofString "/b").isAbsolute = true ∧
    winding.search? [Path.ofString "/nowhere"] (Path.ofString "/b") =
        winding.search? [⟨[]⟩] (Path.ofString "/b") ∧
    winding.tree.lookup? winding.directory = some .directory ∧ winding.directory.Short ∧
    (Path.ofString "//d/./e/").Same winding.directory.toPath ∧
    winding.resolve [Path.ofString "//d/./e/"] (Path.ofString "up/../a") =
        Path.ofString "/d/x.h" := by
  have passed := (winding.precedence (Path.ofString "x.h")).passed
    [Path.ofString "/"] [Path.ofString "/d"]
  have absolute : (Path.ofString "/b").isAbsolute = true := by decide
  have directory : winding.tree.lookup? winding.directory = some .directory := by decide
  have short : winding.directory.Short := by decide
  have same : (Path.ofString "//d/./e/").Same winding.directory.toPath := by decide
  refine ⟨(passed ?_).trans (by cbv), absolute,
    (winding.precedence _).absolute absolute _ _ (List.cons_ne_nil _ _) (List.cons_ne_nil _ _),
    directory, short, same,
    ((winding.precedence _).working directory short _ same [] []).2.trans (by cbv)⟩
  intro d hd l content led
  rw [List.mem_singleton.1 hd] at led
  have nothing : winding.canonicalize ((Path.ofString "/").join (Path.ofString "x.h")) =
      .error .notFound := by cbv
  rw [nothing] at led
  cases led

end Sample

end IncludeAtlas
