import IncludeAtlas.Page.Response
import IncludeAtlas.Proofs.Document.Text

/-!
# What a served page exposes

Whoever can reach the port can send any target with any method.  This module says what comes
back: the document at two paths, its size at a third, the files of the page at the paths that name
them, and nothing else.

## Main Definitions

* `Request.path`, `Request.route`: the path of a request, and where it leads
* `Request.Names`: the file that a path names
* `GraphDocument.Surface`: all that can be seen of a document

## Main Results

* `Target.path_append`: a path that starts with a slash is taken as it stands, up to the query
* `Request.route_cases`: where a request leads
* `GraphDocument.respond_cases`: what kinds of answers there are
* `GraphDocument.respond_elsewhere`: most answers do not depend on the document
* `GraphDocument.surface`: what is exposed, for every document

## What is load-bearing

Paths are compared letter by letter.  None is decoded and none is tidied up, so the only paths
that lead to the document are the two that are spelled like its own, and two paths lead to one
file only if they differ in the slashes they start with.

## Design notes

There are two kinds of paths that lead nowhere: those that do not start with a slash, and four
that have one slash too many at their end.  At the former nothing is found, whatever the method
is.  What becomes of other methods at the latter is not part of `GraphDocument.Surface`.
-/

namespace IncludeAtlas

namespace Target

/-- **A path that starts with a slash is taken as it stands**, up to the query or fragment. -/
theorem path_append {p q : List Char} (slash : p.head? = some '/')
    (plain : ∀ c ∈ p, c ≠ '?' ∧ c ≠ '#') (ends : ∀ c ∈ q.head?, c = '?' ∨ c = '#') :
    path (String.ofList (p ++ q)) = p := by
  have cut : withoutQuery (p ++ q) = p := by
    unfold withoutQuery
    rw [List.takeWhile_append_of_pos fun c mem => decide_eq_true (plain c mem)]
    cases q with
    | nil => simp
    | cons c q =>
        have stop : ¬ (c ≠ '?' ∧ c ≠ '#') := by
          rintro ⟨question, hash⟩
          exact (ends c rfl).elim question hash
        rw [List.takeWhile_cons_of_neg (by simpa using stop), List.append_nil]
  unfold path
  rw [String.toList_ofList, cut]
  exact if_pos (.inl slash)

end Target

namespace Asset

/-- A file of the page is found by its name. -/
theorem named?_eq_some_iff {name : String} {a : Asset} :
    named? name = some a ↔ a ∈ all ∧ a.name = name := by
  unfold named?
  constructor
  · intro h
    exact ⟨List.mem_of_find?_eq_some h, by simpa using List.find?_some h⟩
  · rintro ⟨there, rfl⟩
    rcases List.mem_pair.1 there with rfl | rfl
    · rfl
    · have other : page.name ≠ script.name := by decide
      rw [all, List.find?_cons_of_neg (by simpa using other), List.find?_cons_of_pos (by simp)]

theorem named?_eq_none_iff {name : String} : named? name = none ↔ ∀ a ∈ all, a.name ≠ name := by
  unfold named?
  simp

end Asset

namespace Request

variable {r : Request} {name : String}

/-- The path of a request. -/
def path (r : Request) : String :=
  String.ofList (Target.path r.target)

/-- The path of a request names a file: it is the name after one or more slashes, and the page
goes without its name. -/
def Names (r : Request) (name : String) : Prop :=
  ∃ slashes rest, r.path.toList = slashes ++ rest ∧ slashes ≠ [] ∧ (∀ c ∈ slashes, c = '/') ∧
    rest.head? ≠ some '/' ∧ name = if rest = [] then "index.html" else String.ofList rest

theorem toList_path (r : Request) : r.path.toList = Target.path r.target :=
  String.toList_ofList

theorem fileName_eq (rest : List Char) :
    Route.fileName rest = if rest = [] then "index.html" else String.ofList rest := by
  cases rest with
  | nil => rfl
  | cons c rest => exact (if_neg (List.cons_ne_nil c rest)).symm

/-- The name of the file is that of the route. -/
theorem names_iff (slash : r.path.toList.head? = some '/') :
    r.Names name ↔ name = Route.fileName (r.path.toList.dropWhile (· = '/')) := by
  rw [fileName_eq]
  constructor
  · rintro ⟨slashes, rest, split, -, all, stop, rfl⟩
    have dropped : r.path.toList.dropWhile (· = '/') = rest := by
      rw [split, List.dropWhile_append_of_pos fun c mem => decide_eq_true (all c mem)]
      cases rest with
      | nil => rfl
      | cons c rest =>
          have other : ¬ c = '/' := fun h => stop (congrArg some h)
          exact List.dropWhile_cons_of_neg (by simpa using other)
    rw [dropped]
  · rintro rfl
    refine ⟨r.path.toList.takeWhile (· = '/'), _, List.takeWhile_append_dropWhile.symm, ?_, ?_, ?_,
      rfl⟩
    · obtain ⟨rest, h⟩ := List.head?_eq_some_iff.1 slash
      simp [h]
    · intro c mem
      simpa using List.mem_takeWhile_imp mem
    · intro h
      have stop := List.head?_dropWhile_not (fun c : Char => decide (c = '/')) r.path.toList
      rw [h] at stop
      simp at stop

theorem Names.slash (named : r.Names name) : r.path.toList.head? = some '/' := by
  obtain ⟨slashes, rest, split, some, all, -⟩ := named
  cases slashes with
  | nil => exact absurd rfl some
  | cons c slashes => rw [split, all c List.mem_cons_self, List.cons_append, List.head?_cons]

/-! ## Routes -/

/-- The route of a request. -/
def route (r : Request) : Route :=
  Route.ofPath (Target.path r.target)

theorem route_eq (r : Request) : r.route =
    if r.path ∈ Route.graphPaths then .graph
    else if r.path = Route.healthPath then .health
    else if r.path.toList.head? ≠ some '/' ∨ r.path ∈ Route.deadEnds then .nowhere
    else .file (Route.fileName (r.path.toList.dropWhile (· = '/'))) := by
  rw [toList_path]
  rfl

/-- The paths with a meaning of their own. -/
def reserved : List String :=
  Route.graphPaths ++ Route.healthPath :: Route.deadEnds

theorem slash_of_mem_reserved : ∀ p ∈ reserved, p.toList.head? = some '/' := by
  decide

theorem fileName_of_mem_reserved : ∀ p ∈ reserved, ∀ name ∈ ["index.html", "graph.js"],
    name ≠ Route.fileName (p.toList.dropWhile (· = '/')) := by
  decide

/-- A path with a meaning of its own names no file that there is. -/
theorem Names.notMem_reserved {a : Asset} (there : a ∈ Asset.all) (named : r.Names a.name) :
    r.path ∉ reserved := by
  intro mem
  have listed : a.name ∈ ["index.html", "graph.js"] := List.mem_map_of_mem there
  exact fileName_of_mem_reserved _ mem _ listed ((names_iff named.slash).1 named)

theorem route_of_mem_graphPaths (h : r.path ∈ Route.graphPaths) : r.route = .graph := by
  rw [route_eq, if_pos h]

theorem route_of_healthPath (h : r.path = Route.healthPath) : r.route = .health := by
  have other : r.path ∉ Route.graphPaths := by
    rw [h]
    decide
  rw [route_eq, if_neg other, if_pos h]

theorem route_of_no_slash (h : r.path.toList.head? ≠ some '/') : r.route = .nowhere := by
  have free : r.path ∉ reserved := fun mem => h (slash_of_mem_reserved _ mem)
  obtain ⟨graph, free⟩ := not_or.1 (mt List.mem_append.2 free)
  obtain ⟨health, -⟩ := not_or.1 (mt List.mem_cons.2 free)
  rw [route_eq, if_neg graph, if_neg health, if_pos (.inl h)]

theorem route_of_names (free : r.path ∉ reserved) (named : r.Names name) :
    r.route = .file name := by
  obtain ⟨graph, free⟩ := not_or.1 (mt List.mem_append.2 free)
  obtain ⟨health, dead⟩ := not_or.1 (mt List.mem_cons.2 free)
  have leads : ¬ (r.path.toList.head? ≠ some '/' ∨ r.path ∈ Route.deadEnds) :=
    not_or.2 ⟨not_not.2 named.slash, dead⟩
  rw [route_eq, if_neg graph, if_neg health, if_neg leads, (names_iff named.slash).1 named]

/-- **Where a request leads**: to the document, to the report, nowhere, or to a name. -/
theorem route_cases (r : Request) :
    (r.path ∈ Route.graphPaths ∧ r.route = .graph) ∨
    (r.path = Route.healthPath ∧ r.route = .health) ∨
    ((r.path.toList.head? ≠ some '/' ∨ r.path ∈ Route.deadEnds) ∧ r.route = .nowhere) ∨
    ∃ name, r.path ∉ reserved ∧ r.Names name ∧ r.route = .file name := by
  rw [route_eq]
  split_ifs with graph health dead
  · exact .inl ⟨graph, rfl⟩
  · exact .inr (.inl ⟨health, rfl⟩)
  · exact .inr (.inr (.inl ⟨dead, rfl⟩))
  · obtain ⟨slash, free⟩ := not_or.1 dead
    have named := (names_iff (not_not.1 slash)).2 rfl
    refine .inr (.inr (.inr ⟨_, ?_, named, rfl⟩))
    intro mem
    rcases List.mem_append.1 mem with mem | mem
    · exact graph mem
    · exact (List.mem_cons.1 mem).elim health free

/-- Away from the document and the report there are names at most. -/
theorem route_elsewhere (free : r.path ∉ ["/graph.json", "/api/graph", "/api/health"]) :
    r.route = .nowhere ∨ ∃ name, r.Names name ∧ r.route = .file name := by
  rcases r.route_cases with ⟨mem, -⟩ | ⟨health, -⟩ | ⟨-, asked⟩ | ⟨name, -, named, asked⟩
  · exact absurd (List.mem_append_left [Route.healthPath] mem) free
  · exact absurd (List.mem_append_right Route.graphPaths (List.mem_singleton.2 health)) free
  · exact .inl asked
  · exact .inr ⟨name, named, asked⟩

theorem dead_of_route (h : r.route = .nowhere) :
    r.path.toList.head? ≠ some '/' ∨ r.path ∈ Route.deadEnds := by
  rcases r.route_cases with ⟨-, asked⟩ | ⟨-, asked⟩ | ⟨dead, -⟩ | ⟨name, -, -, asked⟩
  · cases asked.symm.trans h
  · cases asked.symm.trans h
  · exact dead
  · cases asked.symm.trans h

end Request

theorem Json.Number.render_ofNat (k : Nat) : (Number.ofNat k).render = Natural.digits k := by
  simp [ofNat, render, Decimal.sign]

namespace Response

@[simp] theorem allowOrigin_withoutBody (a : Response) :
    a.withoutBody.allowOrigin = a.allowOrigin := rfl

@[simp] theorem status_withoutBody (a : Response) : a.withoutBody.status = a.status := rfl

end Response

namespace GraphDocument

variable {d : GraphDocument} {r : Request}

/-! ## Answers -/

theorem content_file {a : Asset} (there : a ∈ Asset.all) :
    d.content (.file a.name) = .withContent 200 a.contentType a.content := by
  rw [content, Asset.named?_eq_some_iff.2 ⟨there, rfl⟩]

theorem content_missing {name : String} (h : ∀ a ∈ Asset.all, a.name ≠ name) :
    d.content (.file name) = .withContent 404 "text/plain; charset=utf-8" "Not Found" := by
  rw [content, Asset.named?_eq_none_iff.2 h]

/-- A file that can be got is a file of the page. -/
theorem exists_of_content_file {name : String} (h : (d.content (.file name)).status = 200) :
    ∃ a ∈ Asset.all, a.name = name := by
  by_contra missing
  push Not at missing
  rw [content_missing missing] at h
  cases h

theorem allowOrigin_content (d : GraphDocument) (route : Route) :
    (d.content route).allowOrigin = "*" := by
  cases route with
  | graph => rfl
  | health => rfl
  | nowhere => rfl
  | file name =>
      rw [content]
      cases Asset.named? name <;> rfl

theorem respond_of_nowhere (h : r.route = .nowhere) :
    d.respond r = .empty (if r.method = "OPTIONS" then 200 else 404) none := by
  unfold respond
  rw [← Request.route, h]

theorem respond_of_route (h : r.route ≠ .nowhere) :
    d.respond r = if r.method = "GET" then d.content r.route
      else if r.method = "HEAD" then (d.content r.route).withoutBody
      else .empty (if r.method = "OPTIONS" then 200 else 405) (some allowedMethods) := by
  unfold respond
  rw [← Request.route]
  cases asked : r.route with
  | nowhere => exact absurd asked h
  | graph => rfl
  | health => rfl
  | file name => rfl

/-- What there is at a route is what a request without further wishes gets. -/
theorem respond_get (h : r.method = "GET") : d.respond r = d.content r.route := by
  by_cases asked : r.route = .nowhere
  · rw [respond_of_nowhere asked, asked, h, if_neg (by decide)]
    rfl
  · rw [respond_of_route asked, if_pos h]

theorem respond_head (h : r.method = "HEAD") :
    d.respond r = (d.content r.route).withoutBody := by
  by_cases asked : r.route = .nowhere
  · rw [respond_of_nowhere asked, asked, h, if_neg (by decide)]
    rfl
  · rw [respond_of_route asked, h, if_neg (by decide), if_pos rfl]

theorem respond_options (h : r.method = "OPTIONS") : ∃ allow, d.respond r = .empty 200 allow := by
  by_cases asked : r.route = .nowhere
  · exact ⟨none, by rw [respond_of_nowhere asked, if_pos h]⟩
  · refine ⟨some allowedMethods, ?_⟩
    rw [respond_of_route asked, h, if_neg (by decide), if_neg (by decide), if_pos rfl]

theorem respond_refused (asked : r.route ≠ .nowhere) (h : r.method ∉ ["GET", "HEAD", "OPTIONS"]) :
    d.respond r = .empty 405 (some allowedMethods) := by
  simp only [List.mem_cons, List.not_mem_nil, or_false, not_or] at h
  obtain ⟨get, head, options⟩ := h
  rw [respond_of_route asked, if_neg get, if_neg head, if_neg options]

/-- Every answer is one of these. -/
theorem respond_cases (d : GraphDocument) (r : Request) :
    (r.method = "GET" ∧ d.respond r = d.content r.route) ∨
    (r.method = "HEAD" ∧ d.respond r = (d.content r.route).withoutBody) ∨
    (r.method = "OPTIONS" ∧ ∃ allow, d.respond r = .empty 200 allow) ∨
    (r.method ∉ ["GET", "HEAD", "OPTIONS"] ∧
      ∃ status ∈ [404, 405], ∃ allow, d.respond r = .empty status allow) := by
  by_cases known : r.method ∈ ["GET", "HEAD", "OPTIONS"]
  · simp only [List.mem_cons, List.not_mem_nil, or_false] at known
    rcases known with get | head | options
    · exact .inl ⟨get, respond_get get⟩
    · exact .inr (.inl ⟨head, respond_head head⟩)
    · exact .inr (.inr (.inl ⟨options, respond_options options⟩))
  · refine .inr (.inr (.inr ⟨known, ?_⟩))
    by_cases asked : r.route = .nowhere
    · have options : r.method ≠ "OPTIONS" := fun h => known (by simp [h])
      exact ⟨404, by decide, none, by rw [respond_of_nowhere asked, if_neg options]⟩
    · exact ⟨405, by decide, _, respond_refused asked known⟩

theorem allowOrigin_respond (d : GraphDocument) (r : Request) :
    (d.respond r).allowOrigin = "*" := by
  rcases d.respond_cases r with ⟨-, h⟩ | ⟨-, h⟩ | ⟨-, allow, h⟩ | ⟨-, status, -, allow, h⟩
  · rw [h, allowOrigin_content]
  · rw [h, Response.allowOrigin_withoutBody, allowOrigin_content]
  · rw [h]
    rfl
  · rw [h]
    rfl

/-- Success means that something is there and was asked for by a method that gets it. -/
theorem content_of_success (asking : r.method ≠ "OPTIONS") (success : (d.respond r).status = 200) :
    (r.method = "GET" ∨ r.method = "HEAD") ∧ (d.content r.route).status = 200 := by
  rcases d.respond_cases r with ⟨get, h⟩ | ⟨head, h⟩ | ⟨options, -⟩ |
    ⟨-, status, failure, allow, h⟩
  · rw [h] at success
    exact ⟨.inl get, success⟩
  · rw [h, Response.status_withoutBody] at success
    exact ⟨.inr head, success⟩
  · exact absurd options asking
  · rw [h] at success
    rw [show status = 200 from success] at failure
    exact absurd failure (by decide)

/-- Only what there is at the route depends on the document. -/
theorem respond_congr {d' : GraphDocument} (h : d.content r.route = d'.content r.route) :
    d.respond r = d'.respond r := by
  by_cases asked : r.route = .nowhere
  · rw [respond_of_nowhere asked, respond_of_nowhere asked]
  · rw [respond_of_route asked, respond_of_route asked, h]

/-- **Away from the document and the report nothing depends on the document.** -/
theorem respond_elsewhere (d d' : GraphDocument)
    (free : r.path ∉ ["/graph.json", "/api/graph", "/api/health"]) :
    d.respond r = d'.respond r := by
  apply respond_congr
  rcases Request.route_elsewhere free with asked | ⟨name, -, asked⟩
  · rw [asked]
    rfl
  · rw [asked]
    rfl

/-- The report in words. -/
theorem compact_health (d : GraphDocument) : String.ofList d.health.compact =
    "\x7b\"status\":\"ok\",\"version\":\"0.1.0\",\"nodes\":" ++ Natural.text d.nodes.length ++
      ",\"edges\":" ++ Natural.text d.edges.length ++ "\x7d" := by
  have status : Json.renderString (Json.unitsOf "status") ++ ':' ::
      Json.renderString (Json.unitsOf "ok") = "\"status\":\"ok\"".toList := by decide
  have version : Json.renderString (Json.unitsOf "version") ++ ':' ::
      Json.renderString (Json.unitsOf versionNumber) = "\"version\":\"0.1.0\"".toList := by decide
  have nodes : Json.renderString (Json.unitsOf "nodes") = "\"nodes\"".toList := by decide
  have edges : Json.renderString (Json.unitsOf "edges") = "\"edges\"".toList := by decide
  apply String.toList_inj.1
  rw [String.toList_ofList]
  simp only [health, Json.ofFields, List.map_cons, List.map_nil, Json.ofText, Json.ofNat,
    Json.compact, Json.compactMembers, Json.Number.render_ofNat, status, version, nodes, edges]
  simp [Natural.text]

theorem parse?_writeCompact (d : GraphDocument) :
    Json.parse? d.writeCompact.toList = some d.toJson.reread := by
  unfold writeCompact
  rw [String.toList_ofList]
  exact Json.parse?_compact d.writable_toJson

/-! ## What is exposed -/

/-- All that can be seen of a document. -/
structure Surface (d : GraphDocument) : Prop where
  /-- A path that starts with a slash is judged as it is spelled, up to the query. -/
  raw : ∀ (method : String) (p q : List Char), p.head? = some '/' →
    (∀ c ∈ p, c ≠ '?' ∧ c ≠ '#') → (∀ c ∈ q.head?, c = '?' ∨ c = '#') →
    Request.path ⟨method, String.ofList (p ++ q)⟩ = String.ofList p
  /-- At two paths the document can be got, without blanks. -/
  graph : ∀ r : Request, r.method = "GET" → r.path ∈ ["/graph.json", "/api/graph"] →
    d.respond r = .withContent 200 "application/json" d.writeCompact
  /-- What is got there is the whole document. -/
  whole : Json.parse? d.writeCompact.toList = some d.toJson.reread
  /-- At a third path there is the size of the document. -/
  health : ∀ r : Request, r.method = "GET" → r.path = "/api/health" →
    d.respond r = .withContent 200 "application/json"
      ("\x7b\"status\":\"ok\",\"version\":\"0.1.0\",\"nodes\":" ++ Natural.text d.nodes.length ++
        ",\"edges\":" ++ Natural.text d.edges.length ++ "\x7d")
  /-- The files of the page are at the paths that name them. -/
  file : ∀ r : Request, r.method = "GET" → ∀ a ∈ Asset.all, r.Names a.name →
    d.respond r = .withContent 200 a.contentType a.content
  /-- There is nothing at any other path. -/
  missing : ∀ r : Request, r.method = "GET" →
    r.path ∉ ["/graph.json", "/api/graph", "/api/health"] → (∀ a ∈ Asset.all, ¬ r.Names a.name) →
    (d.respond r).status = 404
  /-- A path that does not start with a slash leads nowhere, for every method. -/
  outside : ∀ r : Request, r.method ≠ "OPTIONS" → r.path.toList.head? ≠ some '/' →
    d.respond r = .empty 404 none
  /-- Everything can be asked for without its content. -/
  head : ∀ target, d.respond ⟨"HEAD", target⟩ = (d.respond ⟨"GET", target⟩).withoutBody
  /-- The question what is allowed is always answered. -/
  options : ∀ target, ∃ allow, d.respond ⟨"OPTIONS", target⟩ = .empty 200 allow
  /-- All other methods are refused on every path that leads somewhere. -/
  refused : ∀ r : Request, r.method ∉ ["GET", "HEAD", "OPTIONS"] →
    r.path.toList.head? = some '/' → r.path ∉ Route.deadEnds →
    d.respond r = .empty 405 (some "GET,HEAD")
  /-- Pages of every origin may read every answer. -/
  origin : ∀ r, (d.respond r).allowOrigin = "*"
  /-- What is got is the document, its size or a file of the page. -/
  found : ∀ r : Request, r.method ≠ "OPTIONS" → (d.respond r).status = 200 →
    (r.method = "GET" ∨ r.method = "HEAD") ∧
      (r.path ∈ ["/graph.json", "/api/graph", "/api/health"] ∨ ∃ a ∈ Asset.all, r.Names a.name)
  /-- Away from its own paths no more than the size of the document is given away. -/
  size : ∀ (d' : GraphDocument) (r : Request), r.path ∉ ["/graph.json", "/api/graph"] →
    d'.nodes.length = d.nodes.length → d'.edges.length = d.edges.length →
    d'.respond r = d.respond r
  /-- The size is given away at the third path only. -/
  secret : ∀ (d' : GraphDocument) (r : Request),
    r.path ∉ ["/graph.json", "/api/graph", "/api/health"] → d'.respond r = d.respond r

/-- **A served page exposes its document and its files**, at their own paths and nowhere else,
whatever is asked for in whatever way. -/
theorem surface (d : GraphDocument) : d.Surface where
  raw := fun _ _ _ slash plain ends => congrArg String.ofList (Target.path_append slash plain ends)
  graph := by
    intro r get path
    rw [respond_get get, Request.route_of_mem_graphPaths path]
    rfl
  whole := d.parse?_writeCompact
  health := by
    intro r get path
    rw [respond_get get, Request.route_of_healthPath path, ← compact_health]
    rfl
  file := by
    intro r get a there named
    rw [respond_get get, Request.route_of_names (named.notMem_reserved there) named]
    exact content_file there
  missing := by
    intro r get free unnamed
    rw [respond_get get]
    rcases Request.route_elsewhere free with asked | ⟨name, named, asked⟩
    · rw [asked]
      rfl
    · rw [asked, content_missing]
      · rfl
      · rintro a there rfl
        exact unnamed a there named
  outside := by
    intro r asking slash
    rw [respond_of_nowhere (Request.route_of_no_slash slash), if_neg asking]
  head := by
    intro target
    rw [respond_head rfl, respond_get rfl]
    rfl
  options := fun target => respond_options rfl
  refused := by
    intro r other slash live
    refine respond_refused (fun asked => ?_) other
    rcases Request.dead_of_route asked with none | dead
    · exact none slash
    · exact live dead
  origin := d.allowOrigin_respond
  found := by
    intro r asking success
    obtain ⟨method, there⟩ := content_of_success asking success
    refine ⟨method, ?_⟩
    by_cases known : r.path ∈ ["/graph.json", "/api/graph", "/api/health"]
    · exact .inl known
    · rcases Request.route_elsewhere known with asked | ⟨name, named, asked⟩
      · rw [asked] at there
        cases there
      · rw [asked] at there
        obtain ⟨a, mem, rfl⟩ := exists_of_content_file there
        exact .inr ⟨a, mem, named⟩
  size := by
    intro d' r free nodes edges
    by_cases health : r.path = Route.healthPath
    · apply respond_congr
      rw [Request.route_of_healthPath health, content, content, compact_health, compact_health,
        nodes, edges]
    · apply respond_elsewhere
      intro mem
      rcases List.mem_append.1 (show r.path ∈ Route.graphPaths ++ [Route.healthPath] from mem)
        with mem | mem
      · exact free mem
      · exact health (List.mem_singleton.1 mem)
  secret := fun d' r free => respond_elsewhere d' d free

/-- **Nothing is refused where nothing leads**: a method without meaning is told that there is
nothing at a path with a slash too many, and a target without a path is not that of the page. -/
theorem not_all_refused_nor_served :
    ¬ (∀ (d : GraphDocument) (r : Request), r.method ∉ ["GET", "HEAD", "OPTIONS"] →
      (d.respond r).status = 405) ∧
    ¬ (∀ (d : GraphDocument) (r : Request), r.method = "GET" →
      r.path ∉ ["/graph.json", "/api/graph", "/api/health"] →
      r.path.toList.dropWhile (· = '/') = [] → (d.respond r).status = 200) := by
  constructor
  · intro h
    have dead : Request.route ⟨"POST", "/graph.json/"⟩ = .nowhere := by decide
    have status := h ⟨[], []⟩ ⟨"POST", "/graph.json/"⟩ (by decide)
    rw [respond_of_nowhere dead] at status
    cases status
  · intro h
    have dead : Request.route ⟨"GET", "localhost"⟩ = .nowhere := by decide
    have status := h ⟨[], []⟩ ⟨"GET", "localhost"⟩ rfl (by decide) (by decide)
    rw [respond_of_nowhere dead] at status
    cases status

end GraphDocument

end IncludeAtlas
