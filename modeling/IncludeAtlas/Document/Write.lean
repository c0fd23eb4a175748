import IncludeAtlas.Document.Text
import IncludeAtlas.FileTree.Write

/-!
# Documents in files

Writing the document of a graph to a file, with the directories it needs.

## Main Definitions

* `WriteError`: why a document was not written
* `Workspace.writeDocument`: writes a document
-/

namespace IncludeAtlas

/-- A file that could not be written. -/
structure WriteError where
  path : Path
  fault : IoFault
  deriving DecidableEq, Repr

/-- The wording of the error. -/
def WriteError.message (e : WriteError) : String :=
  "cannot write " ++ e.path.display ++ ": " ++ e.fault.message

namespace Workspace

/-- Writes a document to a file, with the directories it needs.  The result is the
workspace as far as it came, and the error if there was one. -/
def writeDocument (w : Workspace) (p : Path) (d : GraphDocument) :
    Workspace × Option WriteError :=
  let (w, fault) := w.writeWithParents p (Utf8.encode d.write)
  (w, fault.map fun fault => ⟨p, fault⟩)

end Workspace

end IncludeAtlas
