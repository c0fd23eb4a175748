import IncludeAtlas.Document.Text
import IncludeAtlas.FileTree.Write
import IncludeAtlas.Text.Digit

/-!
# File trees as JSON

A tree described as the array of its entries, each an object with a path and what stands
there: `dir` for a directory, `link` with the target of a link, or the content of a file as
`text` or as bytes in `hex`.  A path is a string, or an object with its bytes in `hex`.

## Main Definitions

* `Json.field?`: a field that is not null
* `Snapshot.path`, `Snapshot.content`: paths and contents
* `Snapshot.place`, `Snapshot.placeAll`: puts described entries into a tree
* `Workspace.ofSnapshot`: a described tree and its working directory

## Design notes

Entries are put into the tree in their order, with the directories they need.  One that
cannot stand where it should is left out, and so is whatever a description lacks.
-/

namespace IncludeAtlas

/-- A field of an object, if it is there and not null. -/
def Json.field? (name : String) : Json → Option Json
  | .object members =>
    match members.find? fun m => text? m.1 = some name.toList with
    | some (_, .null) | none => none
    | some (_, v) => some v
  | _ => none

namespace Snapshot

/-- The bytes that pairs of digits in base sixteen spell. -/
def hexBytes : List Char → Bytes
  | a :: b :: rest =>
    (Digit.value 16 [a, b]).toUInt8 :: hexBytes rest
  | _ => []

/-- The text of a field, or nothing. -/
def textField (name : String) (v : Json) : String :=
  ((v.field? name).bind Json.string?).getD ""

/-- A path. -/
def path (v : Json) : Path :=
  match v.string? with
  | some s => Path.ofString s
  | none => ⟨hexBytes (textField "hex" v).toList⟩

/-- The path of a field, which is empty if the field is missing. -/
def pathField (name : String) (v : Json) : Path :=
  ((v.field? name).map path).getD ⟨[]⟩

/-- The content of a file. -/
def content (v : Json) : Bytes :=
  match (v.field? "hex").bind Json.string? with
  | some s => hexBytes s.toList
  | none => Utf8.encode (textField "text" v)

/-- Whether an entry is a directory. -/
def isDirectory (v : Json) : Bool :=
  match v.field? "dir" with
  | some (.bool b) => b
  | _ => false

/-- Puts a described entry into a tree, below a directory. -/
def place (base : Path) (w : Workspace) (v : Json) : Workspace :=
  let p := base.join (pathField "path" v)
  if isDirectory v then (w.makeDirectories p).1
  else
    match v.field? "link" with
    | some target =>
      let w := ((p.parent?).map fun d => (w.makeDirectories d).1).getD w
      ((w.makeLink p (path target)).toOption).getD w
    | none => (w.writeWithParents p (content v)).1

/-- Puts described entries into a tree, below a directory. -/
def placeAll (base : Path) (w : Workspace) (entries : List Json) : Workspace :=
  entries.foldl (place base) w

end Snapshot

/-- The tree below a directory as the field `tree` describes it.  The field `cwd` names the
working directory, which otherwise is the directory itself. -/
def Workspace.ofSnapshot (base : Path) (v : Json) : Workspace :=
  let w := (Workspace.makeDirectories ⟨FileTree.empty, []⟩ base).1
  let w := Snapshot.placeAll base w (((v.field? "tree").bind Json.elements?).getD [])
  let locate (p : Path) := (w.locate p).toOption
  { w with directory :=
      ((locate (base.join (Snapshot.pathField "cwd" v))).or (locate base)).getD [] }

end IncludeAtlas
