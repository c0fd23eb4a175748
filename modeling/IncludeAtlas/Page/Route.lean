/-!
# Routes of the page

What a request asks for, judged by the path of its target alone.

## Main Definitions

* `Target.path`: the path of a target
* `Route`: what can be asked for
* `Route.ofPath`: the route of a path

## Design notes

Paths are compared letter by letter; nothing in them is decoded, and dots have no meaning.
A path that is not the path of a route leads to a file, whose name is what follows the
slashes it starts with.  Only a route that is followed by one slash too many leads nowhere.
-/

namespace IncludeAtlas

namespace Target

/-- A target up to its query or fragment. -/
def withoutQuery (t : List Char) : List Char :=
  t.takeWhile fun c => c ≠ '?' ∧ c ≠ '#'

/-- What follows the scheme of a target, if it has one. -/
def afterScheme? : List Char → Option (List Char)
  | [] => none
  | ':' :: '/' :: '/' :: rest => some rest
  | c :: rest => if c = '/' then none else afterScheme? rest

/-- The path of a target.  A target with a scheme names a host before its path, and one
without either has no path. -/
def path (target : String) : List Char :=
  let t := withoutQuery target.toList
  if t.head? = some '/' ∨ t = ['*'] then t
  else
    match afterScheme? t with
    | some rest =>
      match rest.dropWhile (· ≠ '/') with
      | [] => ['/']
      | p => p
    | none => []

end Target

/-- What can be asked for. -/
inductive Route where
  | graph
  | health
  | file (name : String)
  | nowhere
  deriving DecidableEq, Repr

namespace Route

/-- The paths of the document of the graph. -/
def graphPaths : List String := ["/graph.json", "/api/graph"]

/-- The path of the report on the server. -/
def healthPath : String := "/api/health"

/-- The paths that lead nowhere though they start with a slash. -/
def deadEnds : List String := ["/graph.json/", "/api/graph/", "/api/health/", "/api//"]

/-- The name of the file at a path without its leading slashes. -/
def fileName (p : List Char) : String :=
  match p with
  | [] => "index.html"
  | _ => String.ofList p

/-- The route of a path. -/
def ofPath (p : List Char) : Route :=
  if String.ofList p ∈ graphPaths then .graph
  else if String.ofList p = healthPath then .health
  else if p.head? ≠ some '/' ∨ String.ofList p ∈ deadEnds then .nowhere
  else .file (fileName (p.dropWhile (· = '/')))

end Route

end IncludeAtlas
