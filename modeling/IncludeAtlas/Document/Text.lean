import IncludeAtlas.Document.Basic
import IncludeAtlas.Json.Printer
import IncludeAtlas.Json.Parser

/-!
# Documents as JSON

A document is written as an object with its nodes and edges, each an object with the
fields of its record.  Reading is stricter about the known fields than about anything
else: each has to be there exactly once and with a value of its kind, while members of
other names are passed over.  A record may also be given as the array of its fields.

## Main Definitions

* `GraphDocument.toJson`: the document as a value
* `GraphDocument.write`, `GraphDocument.writeCompact`: the document as text
* `Json.record?`: the fields of a record
* `GraphDocument.ofJson?`, `GraphDocument.read?`: the document of a value or a text
-/

namespace IncludeAtlas

namespace Json

/-- A natural number as a value. -/
def ofNat (n : Nat) : Json :=
  .number (Number.ofNat n)

/-- A floating-point number as a value.  Infinities and what is no number are null. -/
def ofFloat (x : Float) : Json :=
  match Number.ofFloat? x with
  | some n => .number n
  | none => .null

/-- An object of named values. -/
def ofFields (fields : List (String × Json)) : Json :=
  .object (fields.map fun (name, v) => (unitsOf name, v))

/-- The only element of a list. -/
def only? {α : Type} : List α → Option α
  | [a] => some a
  | _ => none

/-- The members of an object with their keys as text. -/
def members? (ms : List (List Unit × Json)) : Option (List (List Char × Json)) :=
  ms.mapM fun (k, v) => (text? k).map fun k => (k, v)

/-- The values of the named fields of a record: those of an object in which each name
stands exactly once, or the elements of an array of just these fields. -/
def record? (names : List String) : Json → Option (List Json)
  | .array elements => if elements.length = names.length then some elements else none
  | .object ms => do
    let ms ← members? ms
    names.mapM fun name => only? ((ms.filter fun m => m.1 = name.toList).map Prod.snd)
  | _ => none

/-- The elements of an array. -/
def elements? : Json → Option (List Json)
  | .array elements => some elements
  | _ => none

/-- The text of a string. -/
def string? : Json → Option String
  | .string units => (text? units).map String.ofList
  | _ => none

/-- A number of 32 bits. -/
def word? : Json → Option Nat
  | .number n => n.natural? (UInt32.size - 1)
  | _ => none

/-- A floating-point number. -/
def float? : Json → Option Float
  | .number n => n.float?
  | _ => none

end Json

namespace NodeRecord

/-- The fields of a node in their order. -/
def fields : List String := ["id", "label", "group", "size", "x", "y", "color"]

/-- A node as a value. -/
def toJson (n : NodeRecord) : Json :=
  .ofFields [("id", .ofNat n.id), ("label", .ofText n.label), ("group", .ofText n.group),
    ("size", .ofNat n.size), ("x", .ofFloat n.x), ("y", .ofFloat n.y), ("color", .ofText n.color)]

/-- The node that a value stands for. -/
def ofJson? (v : Json) : Option NodeRecord := do
  match ← v.record? fields with
  | [id, label, group, size, x, y, color] =>
    return ⟨← id.word?, ← label.string?, ← group.string?, ← size.word?, ← x.float?, ← y.float?,
      ← color.string?⟩
  | _ => none

end NodeRecord

namespace EdgeRecord

/-- The fields of an edge in their order. -/
def fields : List String := ["id", "source", "target", "size", "type"]

/-- An edge as a value. -/
def toJson (e : EdgeRecord) : Json :=
  .ofFields [("id", .ofNat e.id), ("source", .ofNat e.source), ("target", .ofNat e.target),
    ("size", .ofNat e.size), ("type", .ofText e.kind)]

/-- The edge that a value stands for. -/
def ofJson? (v : Json) : Option EdgeRecord := do
  match ← v.record? fields with
  | [id, source, target, size, kind] =>
    return ⟨← id.word?, ← source.word?, ← target.word?, ← size.word?, ← kind.string?⟩
  | _ => none

end EdgeRecord

namespace GraphDocument

/-- The fields of a document in their order. -/
def fields : List String := ["nodes", "edges"]

/-- A document as a value. -/
def toJson (d : GraphDocument) : Json :=
  .ofFields [("nodes", .array (d.nodes.map NodeRecord.toJson)),
    ("edges", .array (d.edges.map EdgeRecord.toJson))]

/-- The document that a value stands for. -/
def ofJson? (v : Json) : Option GraphDocument := do
  match ← v.record? fields with
  | [nodes, edges] =>
    return ⟨← (← nodes.elements?).mapM NodeRecord.ofJson?,
      ← (← edges.elements?).mapM EdgeRecord.ofJson?⟩
  | _ => none

/-- A document as text over lines. -/
def write (d : GraphDocument) : String :=
  String.ofList (d.toJson.spread 0)

/-- A document as text without blanks. -/
def writeCompact (d : GraphDocument) : String :=
  String.ofList d.toJson.compact

/-- The document that a text spells. -/
def read? (s : String) : Option GraphDocument :=
  (Json.parse? s.toList).bind ofJson?

end GraphDocument

end IncludeAtlas
