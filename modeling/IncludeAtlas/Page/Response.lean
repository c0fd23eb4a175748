import IncludeAtlas.Document.Text
import IncludeAtlas.Page.Asset
import IncludeAtlas.Page.Route
import IncludeAtlas.Version

/-!
# Answers to requests

What is answered to a request while the page of a document is served.

## Main Definitions

* `Request`, `Response`: a request and an answer
* `Response.length`: the size of an answer
* `GraphDocument.health`: the report on the server
* `GraphDocument.content`: what there is at a route
* `GraphDocument.respond`: the answer to a request

## Design notes

Pages of any origin may read every answer.  Where there is something, it can be asked for
with or without its content, asking what is allowed always succeeds, and no other method is.
-/

namespace IncludeAtlas

/-- A request. -/
structure Request where
  method : String
  target : String
  deriving DecidableEq, Repr

/-- An answer. -/
structure Response where
  status : Nat
  contentType : Option String
  /-- The methods that the target allows. -/
  allow : Option String
  /-- The origins whose pages may read the answer. -/
  allowOrigin : String
  body : String
  deriving DecidableEq, Repr

namespace Response

/-- An answer without content. -/
def empty (status : Nat) (allow : Option String) : Response :=
  ⟨status, none, allow, "*", ""⟩

/-- An answer with content. -/
def withContent (status : Nat) (contentType body : String) : Response :=
  ⟨status, some contentType, none, "*", body⟩

/-- The answer without its content. -/
def withoutBody (r : Response) : Response :=
  { r with body := "" }

/-- The size of the content in bytes. -/
def length (r : Response) : Nat :=
  (Utf8.encode r.body).length

end Response

/-- The methods that are allowed wherever there is something. -/
def allowedMethods : String := "GET,HEAD"

namespace GraphDocument

/-- The report on a server with the document. -/
def health (d : GraphDocument) : Json :=
  .ofFields [("status", .ofText "ok"), ("version", .ofText versionNumber),
    ("nodes", .ofNat d.nodes.length), ("edges", .ofNat d.edges.length)]

/-- The answer with what there is at a route. -/
def content (d : GraphDocument) : Route → Response
  | .graph => .withContent 200 "application/json" d.writeCompact
  | .health => .withContent 200 "application/json" (String.ofList d.health.compact)
  | .file name =>
    match Asset.named? name with
    | some a => .withContent 200 a.contentType a.content
    | none => .withContent 404 "text/plain; charset=utf-8" "Not Found"
  | .nowhere => .empty 404 none

/-- The answer to a request. -/
def respond (d : GraphDocument) (r : Request) : Response :=
  match Route.ofPath (Target.path r.target) with
  | .nowhere => .empty (if r.method = "OPTIONS" then 200 else 404) none
  | route =>
    if r.method = "GET" then d.content route
    else if r.method = "HEAD" then (d.content route).withoutBody
    else .empty (if r.method = "OPTIONS" then 200 else 405) (some allowedMethods)

end GraphDocument

end IncludeAtlas
