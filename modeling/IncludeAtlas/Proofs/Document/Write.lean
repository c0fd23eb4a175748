import IncludeAtlas.Document.Write
import IncludeAtlas.Proofs.Document.Text
import IncludeAtlas.Proofs.FileTree.Write
import IncludeAtlas.Proofs.Text.Utf8
import Mathlib.Data.List.Permutation

/-!
# Documents that are written

What becomes of a workspace when a document is written to a file in it, whatever stands there and
however the path is spelled.

## Main Definitions

* `GraphDocument.Exported`: a document is in a file, with directories on the way to it

## Main Results

* `GraphDocument.readText_writeDocument`: what was exported is in the file
* `GraphDocument.confined`: writing changes the file under a path and makes directories above it,
  or only the latter

## Design notes

A path may lead over links, up from directories that have to be made first, and to a file that a
link names.  So what is new is described by what paths denote in the end and not by how they are
spelled.
-/

namespace IncludeAtlas

/-- A file that holds an encoded text is read as the text. -/
theorem Workspace.readText_of_read {w : Workspace} {p : Path} {text : String}
    (h : w.read p = .ok (Utf8.encode text)) : w.readText p = .ok text := by
  unfold readText
  rw [h]
  simp only [bind, Except.bind, Utf8.decode?_encode]

namespace GraphDocument

variable {w w' : Workspace} {p : Path} {d : GraphDocument}

/-- Writing a document is writing its text, and fails for the same reason. -/
theorem writeDocument_eq_iff {e : Option WriteError} :
    w.writeDocument p d = (w', e) ↔ ∃ fault,
      w.writeWithParents p (Utf8.encode d.write) = (w', fault) ∧ e = fault.map (⟨p, ·⟩) := by
  unfold Workspace.writeDocument
  rcases w.writeWithParents p (Utf8.encode d.write) with ⟨w₁, fault⟩
  simp [eq_comm]

theorem writeDocument_eq_none_iff :
    w.writeDocument p d = (w', none) ↔
      w.writeWithParents p (Utf8.encode d.write) = (w', none) := by
  rw [writeDocument_eq_iff]
  constructor
  · rintro ⟨fault, eq, none⟩
    rwa [Option.map_eq_none_iff.1 none.symm] at eq
  · exact fun eq => ⟨none, eq, rfl⟩

/-- Where something can be written, every document can be exported. -/
theorem writeDocument_of_writable (h : w.Writable p) (d : GraphDocument) :
    (w.writeDocument p d).2 = none := by
  obtain ⟨w', eq, -⟩ := h.exists_overwrites (Utf8.encode d.write)
  exact congrArg Prod.snd (writeDocument_eq_none_iff.2 eq)

/-- **What was exported is in the file.** -/
theorem readText_writeDocument (written : (w.writeDocument p d).2 = none) :
    (w.writeDocument p d).1.readText p = .ok d.write := by
  rcases exported : w.writeDocument p d with ⟨w', e⟩
  rw [exported] at written
  obtain rfl : e = none := written
  obtain ⟨l, receives⟩ := Workspace.exists_receives (writeDocument_eq_none_iff.1 exported)
  exact Workspace.readText_of_read receives.overwrites.read

/-- A document has been exported: it is in the file under a path, all paths above that lead to
directories, and nothing else has changed. -/
structure Exported (w w' : Workspace) (p : Path) (d : GraphDocument) : Prop where
  text : w'.readText p = .ok d.write
  above : ∀ q ∈ p.above, w'.isDirectory q = true
  receives : ∃ l, w.Receives w' p (Utf8.encode d.write) l

/-- **Writing touches its target only.**  Where a document is written, it is read under the path,
the directories above the path are there, and all that was elsewhere is what it was.  Where it is
not written, nothing that was there has changed, and all that is new are directories above the
path. -/
theorem confined (start : w.tree.lookup? w.directory = some .directory) (p : Path)
    (d : GraphDocument) :
    (∀ w', w.writeDocument p d = (w', none) → Exported w w' p d) ∧
      ∀ w' e, w.writeDocument p d = (w', some e) → w.GrowsBy p.above w' := by
  constructor
  · intro w' exported
    have written := writeDocument_eq_none_iff.1 exported
    obtain ⟨l, receives⟩ := Workspace.exists_receives written
    exact ⟨Workspace.readText_of_read receives.overwrites.read,
      fun q mem => Workspace.isDirectory_of_writeWithParents start written mem, l, receives⟩
  · intro w' e failed
    obtain ⟨fault, eq, some⟩ := writeDocument_eq_iff.1 failed
    cases fault with
    | none => cases some
    | some fault =>
        rw [Workspace.eq_of_writeWithParents eq]
        exact w.growsBy_withParents p

end GraphDocument

namespace Sample

/-- The names of a directory, of a file in it, and of a link to the file. -/
def shelfName : Name := [0x64]
def bookName : Name := [0x62]
def markName : Name := [0x6D]

/-- A directory with a file, and a link to the file. -/
def shelf : Workspace where
  tree := {
    entries := [([shelfName], .directory), ([shelfName, bookName], .file [0x78]),
      ([markName], .link ⟨[0x64, 0x2F, 0x62]⟩)]
    ascending := by decide
    named := by decide
    rooted := by decide }
  directory := []

/-- A document is written through a link, over a directory that has to be made first; in place of
a directory it is not written, and what has been made first stays. -/
theorem confined_shelf :
    shelf.tree.lookup? shelf.directory = some .directory ∧
    (∃ w', shelf.writeDocument (.ofString "n/../m") document = (w', none) ∧
      GraphDocument.Exported shelf w' (.ofString "n/../m") document) ∧
    ∃ w' e, shelf.writeDocument (.ofString "n/../d") document = (w', some e) ∧
      shelf.GrowsBy (Path.above (.ofString "n/../d")) w' := by
  have start : shelf.tree.lookup? shelf.directory = some .directory := rfl
  have writable : shelf.Writable (.ofString "n/../m") := ⟨[], by cbv⟩
  have written : shelf.writeDocument (.ofString "n/../m") document = (_, none) :=
    Prod.ext rfl (GraphDocument.writeDocument_of_writable writable document)
  have occupied : ∀ content, (shelf.writeWithParents (.ofString "n/../d") content).2 =
      some .isADirectory := by
    intro content
    cbv
  obtain ⟨w', failed⟩ : ∃ w', shelf.writeWithParents (.ofString "n/../d")
      (Utf8.encode document.write) = (w', some .isADirectory) :=
    ⟨_, Prod.ext rfl (occupied _)⟩
  have refused := GraphDocument.writeDocument_eq_iff.2 ⟨_, failed, rfl⟩
  exact ⟨start, ⟨_, written, (GraphDocument.confined start _ document).1 _ written⟩, w', _,
    refused, (GraphDocument.confined start _ document).2 _ _ refused⟩

end Sample

end IncludeAtlas
