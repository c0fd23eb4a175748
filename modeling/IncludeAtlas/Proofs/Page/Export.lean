import IncludeAtlas.Proofs.Document.Write
import IncludeAtlas.Proofs.Json.Blanks
import IncludeAtlas.Proofs.Page.Surface

/-!
# The exported document and the served one

A document leaves the program in two ways: written to a file over lines, and served without
blanks.  Both are one text up to the white space outside of string literals, and both are read as
the same document.

## Main Definitions

* `GraphDocument.squeezed`: the exported text without that white space
* `GraphDocument.Coincides`: what the two texts have in common

## Main Results

* `GraphDocument.writeCompact_eq_squeezed`: the served text is the exported one, squeezed
* `GraphDocument.coincides`: the two texts coincide, for every document
-/

namespace IncludeAtlas

namespace GraphDocument

open Json (Zone squeeze renderString unitsOf)

variable {d : GraphDocument} {n : NodeRecord}

/-- The exported text without the white space outside of its string literals. -/
def squeezed (d : GraphDocument) : String :=
  String.ofList (squeeze .outside d.write.toList)

/-- **The served text is the exported one, squeezed.** -/
theorem writeCompact_eq_squeezed (d : GraphDocument) : d.writeCompact = d.squeezed := by
  unfold squeezed write writeCompact
  rw [String.toList_ofList, Json.squeeze_spread d.writable_toJson]

/-- Both texts are read alike, also if a position in the document is not finite. -/
theorem read?_writeCompact (d : GraphDocument) : read? d.writeCompact = read? d.write := by
  unfold read?
  rw [parse?_writeCompact, parse?_write]

/-- The texts of a node are written in its document. -/
theorem string_mem_lexemes (hn : n ∈ d.nodes) {s : String} (hs : s ∈ [n.label, n.group, n.color]) :
    .string (unitsOf s) ∈ d.toJson.lexemes := by
  have written : ∀ (fields : List (String × Json)) (f : String × Json), f ∈ fields →
      ∀ t ∈ f.2.lexemes, t ∈ (Json.ofFields fields).lexemes := by
    intro fields f hf t ht
    exact Json.mem_lexemes_object (List.mem_map_of_mem hf) ht
  have inNode : .string (unitsOf s) ∈ n.toJson.lexemes := by
    have field : ∃ name, (name, Json.ofText s) ∈ [("id", Json.ofNat n.id),
        ("label", .ofText n.label), ("group", .ofText n.group), ("size", .ofNat n.size),
        ("x", .ofFloat n.x), ("y", .ofFloat n.y), ("color", .ofText n.color)] := by
      simp only [List.mem_cons, List.not_mem_nil, or_false] at hs
      rcases hs with rfl | rfl | rfl
      · exact ⟨"label", by simp⟩
      · exact ⟨"group", by simp⟩
      · exact ⟨"color", by simp⟩
    obtain ⟨name, mem⟩ := field
    exact written _ _ mem _ (List.mem_singleton.2 rfl)
  exact written _ ("nodes", _) List.mem_cons_self _
    (Json.mem_lexemes_array (List.mem_map_of_mem hn) inNode)

/-- What the exported text of a document and the served one have in common. -/
structure Coincides (d : GraphDocument) : Prop where
  /-- At its two paths the exported text is served without the white space outside of literals. -/
  body : ∀ r : Request, r.method = "GET" → r.path ∈ ["/graph.json", "/api/graph"] →
    d.respond r = .withContent 200 "application/json" d.squeezed
  /-- The texts of the nodes stand in both, letter by letter, and with the same around them up to
  that white space. -/
  texts : ∀ n ∈ d.nodes, ∀ s ∈ [n.label, n.group, n.color], ∃ before after,
    Zone.outside.after before = .outside ∧
    d.write.toList = before ++ renderString (unitsOf s) ++ after ∧
    d.squeezed.toList =
      squeeze .outside before ++ renderString (unitsOf s) ++ squeeze .outside after
  /-- What is served is read as what is exported. -/
  read : ∀ r : Request, r.method = "GET" → r.path ∈ ["/graph.json", "/api/graph"] →
    read? (d.respond r).body = read? d.write
  /-- So it is read as what is in a file after it has been exported there. -/
  file : ∀ (w : Workspace) (p : Path), (w.writeDocument p d).2 = none →
    ∃ text, (w.writeDocument p d).1.readText p = .ok text ∧
      ∀ r : Request, r.method = "GET" → r.path ∈ ["/graph.json", "/api/graph"] →
        (d.respond r).body = String.ofList (squeeze .outside text.toList) ∧
        read? (d.respond r).body = read? text

/-- **The exported document and the served one are one document**, whatever it holds. -/
theorem coincides (d : GraphDocument) : d.Coincides := by
  have served : ∀ r : Request, r.method = "GET" → r.path ∈ ["/graph.json", "/api/graph"] →
      d.respond r = .withContent 200 "application/json" d.squeezed := by
    intro r get path
    rw [respond_get get, Request.route_of_mem_graphPaths path, ← writeCompact_eq_squeezed]
    rfl
  have alike : ∀ r : Request, r.method = "GET" → r.path ∈ ["/graph.json", "/api/graph"] →
      read? (d.respond r).body = read? d.write := by
    intro r get path
    rw [served r get path, ← read?_writeCompact, writeCompact_eq_squeezed]
    rfl
  refine ⟨served, ?texts, alike, ?file⟩
  case texts =>
    intro n hn s hs
    obtain ⟨before, after, zone, spread, compact⟩ :=
      Json.exists_spread_eq_append d.writable_toJson 0 (string_mem_lexemes hn hs)
    refine ⟨before, after, zone, ?_, ?_⟩
    · rw [write, String.toList_ofList, spread]
      rfl
    · rw [← writeCompact_eq_squeezed, writeCompact, String.toList_ofList, compact]
      rfl
  case file =>
    intro w p written
    refine ⟨d.write, readText_writeDocument written, fun r get path => ⟨?_, alike r get path⟩⟩
    rw [served r get path]
    rfl

end GraphDocument

namespace Sample

/-- A tree without any entry, seen from its root. -/
def bare : Workspace :=
  ⟨.empty, []⟩

/-- A document with a quote, a backslash, a control character and braces in its texts is exported
to a directory that has to be made, and what is served of it is read as what is there. -/
theorem coincides_document :
    (bare.writeDocument (.ofString "out/graph.json") document).2 = none ∧
    ∃ text, (bare.writeDocument (.ofString "out/graph.json") document).1.readText
        (.ofString "out/graph.json") = .ok text ∧
      (document.respond ⟨"GET", "/api/graph?pretty"⟩).body =
        String.ofList (Json.squeeze .outside text.toList) ∧
      GraphDocument.read? (document.respond ⟨"GET", "/api/graph?pretty"⟩).body =
        GraphDocument.read? text := by
  have writable : bare.Writable (.ofString "out/graph.json") := ⟨[], by cbv⟩
  have written := GraphDocument.writeDocument_of_writable writable document
  obtain ⟨text, there, alike⟩ := (GraphDocument.coincides document).file _ _ written
  exact ⟨written, text, there, alike ⟨"GET", "/api/graph?pretty"⟩ rfl (by decide)⟩

end Sample

end IncludeAtlas
