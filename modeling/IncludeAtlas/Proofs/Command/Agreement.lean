import IncludeAtlas.Command.Run
import IncludeAtlas.Proofs.Command.Line
import IncludeAtlas.Proofs.Document.Text
import IncludeAtlas.Proofs.FileTree.Write
import IncludeAtlas.Proofs.Scan.Weight
import IncludeAtlas.Proofs.Settings.Check

/-!
# Commands agree

Counting, printing and writing go through the same scan.  This module says what that is worth to
somebody who has only seen one of them: the counts are those of the document, the document is the
same on a screen and in a file, and what stops one of the commands stops them all, with the same
words.

## Main Definitions

* `GraphDocument.Lists`: a text spells a document with so many nodes and edges
* `Workspace.scan`: the scan that a command line asks for, with its settings
* `Workspace.Delivers`: what three commands make of one document
* `Workspace.Refuses`: what three commands make of one failure
* `Workspace.Agree`: three commands agree

## Main Results

* `GraphDocument.lists_write`: a written document has the nodes and edges that are counted
* `Workspace.commands_agree`: command lines that ask for one scan agree

## Design notes

A file is written after the document is complete.  So it does not matter whether the file is one
of those that have been scanned: its old content is in the document, and the document is its new
content.

The scan arguments name a seed.  Without one, the positions and colors of a graph are left to
chance, and no two commands need to show the same.
-/

namespace IncludeAtlas

/-- A text spells a document with so many nodes and edges. -/
def GraphDocument.Lists (text : String) (nodes edges : Nat) : Prop :=
  ∃ v ns es, Json.parse? text.toList = some v ∧
    v.record? GraphDocument.fields = some [.array ns, .array es] ∧
    ns.length = nodes ∧ es.length = edges

/-- **A written document has its nodes and edges**, be they as they may. -/
theorem GraphDocument.lists_write (d : GraphDocument) :
    GraphDocument.Lists d.write d.nodes.length d.edges.length := by
  have found : d.toJson.record? fields = some [.array (d.nodes.map NodeRecord.toJson),
      .array (d.edges.map EdgeRecord.toJson)] :=
    Json.record?_ofFields (show fields.Nodup by decide)
  have reread : d.toJson.reread.record? fields =
      some [.array ((d.nodes.map NodeRecord.toJson).map Json.reread),
        .array ((d.edges.map EdgeRecord.toJson).map Json.reread)] := by
    rw [Json.record?_reread, found]
    simp [Json.reread]
  refine ⟨_, _, _, d.parse?_write, reread, ?_, ?_⟩
  · rw [List.length_map, List.length_map]
  · rw [List.length_map, List.length_map]

/-- The size of a graph as a line. -/
theorem IncludeGraph.summary_append (g : IncludeGraph) :
    g.summary ++ "\n" = "<Graph: nodes = " ++ Natural.text g.nodeCount ++ ", edges = " ++
      Natural.text g.edgeCount ++ ">\n" := by
  have ends : ">" ++ "\n" = ">\n" := by simp
  unfold IncludeGraph.summary
  rw [String.append_assoc, ends]

namespace Workspace

variable {w : Workspace} {config : Option Path} {a : ScanArguments} {p : Path}
  {counting printing writing : List String}

/-- The scan that a command line asks for: the settings are loaded, and the graph is built. -/
def scan (w : Workspace) (config : Option Path) (a : ScanArguments) :
    Except RunError (Summary × IncludeGraph) :=
  (w.baseSettings config).bind fun s => w.build (a.applyTo s)

/-- What three commands make of one document. -/
structure Delivers (w : Workspace) (p : Path) (text : String)
    (counting printing writing : List String) : Prop where
  /-- The text and a line feed are printed, and nothing else. -/
  printed : w.runArguments printing = (w, .ended (.print (text ++ "\n")))
  /-- If the file can be written, it holds the text, and nothing is printed. -/
  written : w.Writable p → ∃ w', w.runArguments writing = (w', .ended (.print "")) ∧
    w.Overwrites w' p (Utf8.encode text)
  /-- The first line that is printed has the numbers of nodes and edges in the text. -/
  counted : ∃ nodes edges rest, GraphDocument.Lists text nodes edges ∧
    w.runArguments counting = (w, .ended (.print ("<Graph: nodes = " ++ Natural.text nodes ++
      ", edges = " ++ Natural.text edges ++ ">\n" ++ rest)))

/-- What three commands make of one failure: nothing is printed or changed, and all say the
same. -/
def Refuses (w : Workspace) (e : RunError) (lines : List (List String)) : Prop :=
  ∀ line ∈ lines, (w.runArguments line).1 = w ∧ (w.runArguments line).2.status = 1 ∧
    (w.runArguments line).2.printed = "" ∧ (w.runArguments line).2.complaint = report e.causes

/-- Three commands agree on a scan. -/
structure Agree (w : Workspace) (config : Option Path) (a : ScanArguments) (p : Path)
    (counting printing writing : List String) : Prop where
  succeeds : ∀ summary g, w.scan config a = .ok (summary, g) →
    w.Delivers p g.toDocument.write counting printing writing
  fails : ∀ e, w.scan config a = .error e → w.Refuses e [counting, printing, writing]

/-! ## Runs -/

theorem runArguments_of_parse? {line : List String} {c : Command}
    (h : Command.parse? line = some c) :
    w.runArguments line = match w.perform c with
      | (w, .ok ending) => (w, .ended ending)
      | (w, .error e) => (w, .failed (report e.causes)) := by
  unfold runArguments
  cases run : w.perform c with
  | mk w' result => cases result <;> simp only [h, run]

/-- A command that scans does nothing before the scan has succeeded. -/
theorem perform_of_scan_error {e : RunError} (h : w.scan config a = .error e) :
    w.perform ⟨config, .index a⟩ = (w, .error e) ∧
      ∀ output, w.perform ⟨config, .document a output⟩ = (w, .error e) := by
  rw [scan] at h
  cases loaded : w.baseSettings config with
  | error e' =>
      rw [loaded] at h
      obtain rfl := Except.error.inj h
      constructor
      · simp only [perform, loaded]
      · intro output
        simp only [perform, loaded]
  | ok s =>
      rw [loaded] at h
      have built : w.build (a.applyTo s) = .error e := h
      constructor
      · simp only [perform, loaded, act, built]
        rfl
      · intro output
        simp only [perform, loaded, act, built]

/-- A scan that succeeds has settings and a graph. -/
theorem scan_eq_ok_iff {summary : Summary} {g : IncludeGraph} :
    w.scan config a = .ok (summary, g) ↔
      ∃ s, w.baseSettings config = .ok s ∧ w.build (a.applyTo s) = .ok (summary, g) := by
  rw [scan]
  cases w.baseSettings config with
  | error e => simp [Except.bind]
  | ok s => simp [Except.bind]

/-- The effects of the three commands on a document. -/
theorem delivers_of_scan {summary : Summary} {g : IncludeGraph}
    (asked : Command.AskAlike config a p counting printing writing)
    (h : w.scan config a = .ok (summary, g)) :
    w.Delivers p g.toDocument.write counting printing writing := by
  obtain ⟨s, loaded, built⟩ := scan_eq_ok_iff.1 h
  have prints : w.perform ⟨config, .document a none⟩ =
      (w, .ok (.print (g.toDocument.write ++ "\n"))) := by
    simp only [perform, loaded, act, built]
  have counts : w.perform ⟨config, .index a⟩ =
      (w, .ok (.print (g.summary ++ "\n" ++ summary.report))) := by
    simp only [perform, loaded, act, built]
    rfl
  refine ⟨?_, fun writable => ?_, ?_⟩
  · rw [runArguments_of_parse? asked.prints, prints]
  · obtain ⟨w', wrote, overwrites⟩ := writable.exists_overwrites (Utf8.encode g.toDocument.write)
    have written : w.writeTo g.toDocument (some p) = (w', .ok ()) := by
      rw [writeTo, writeDocument, wrote]
      rfl
    have writes : w.perform ⟨config, .document a (some p)⟩ = (w', .ok (.print "")) := by
      simp only [perform, loaded, act, built, written]
      rfl
    refine ⟨w', ?_, overwrites⟩
    rw [runArguments_of_parse? asked.writes, writes]
  · have lists := g.toDocument.lists_write
    rw [IncludeGraph.toDocument, List.length_map, List.length_map] at lists
    refine ⟨g.nodes.length, g.edges.length, summary.report, lists, ?_⟩
    rw [runArguments_of_parse? asked.counts, counts, IncludeGraph.summary_append]
    rfl

/-- **Command lines that ask for one scan agree**, in every tree, from every directory, with
every settings file and with all scan arguments that name a seed. -/
theorem commands_agree (w : Workspace) (a : ScanArguments) (seed : UInt64)
    (asked : Command.AskAlike config { a with seed := some seed } p counting printing writing) :
    w.Agree config { a with seed := some seed } p counting printing writing where
  succeeds := fun summary g h => delivers_of_scan asked h
  fails := by
    intro e h
    obtain ⟨counts, documents⟩ := perform_of_scan_error h
    intro line mem
    have run : w.runArguments line = (w, .failed (report e.causes)) := by
      simp only [List.mem_cons, List.not_mem_nil, or_false] at mem
      rcases mem with rfl | rfl | rfl
      · rw [runArguments_of_parse? asked.counts, counts]
      · rw [runArguments_of_parse? asked.prints, documents]
      · rw [runArguments_of_parse? asked.writes, documents]
    rw [run]
    exact ⟨rfl, rfl, rfl, rfl⟩

end Workspace

/-- Whether colors can be used does not depend on the seed. -/
theorem Settings.exists_graphOptions_seed {s : Settings} (seed : Option UInt64)
    (h : ∃ options, s.graphOptions = .ok options) :
    ∃ options, Settings.graphOptions { s with graph := { s.graph with seed } } = .ok options := by
  obtain ⟨options, usable⟩ := h
  rw [graphOptions] at usable ⊢
  cases read : Palette.parseBase s.graph.colors with
  | error e =>
      rw [read] at usable
      cases usable
  | ok base =>
      cases made : Palette.make base s.graph.variation s.graph.alphaMin with
      | error e =>
          simp only [read, made, bind, Except.bind] at usable
          cases usable
      | ok palette =>
          simp only [bind, Except.bind, made]
          exact ⟨_, rfl⟩

namespace Sample

/-- What is said about a scan of the outer directory. -/
def unseeded : ScanArguments :=
  ⟨[Path.ofString "/r"], [], [], none, none, false, none, none, none, none, false⟩

/-- The same with a seed. -/
def seeded : ScanArguments :=
  { unseeded with seed := some 1 }

theorem askAlike_seeded : Command.AskAlike none seeded source.toPath
    ["index", "--seed=1", "/r"] ["export", "--seed=1", "/r"]
    ["export", "--output=/r/s/x.c", "--seed=1", "/r"] := by
  have words : Word.ofArguments? .index none ["--seed=1", "/r"] =
      some [.valued .seed "1", .operand "/r"] := by
    have option : "--seed=1" = "--" ++ Switch.seed.long ++ "=" ++ "1" := by simp [Switch.long]
    rw [option]
    exact Word.ofArguments?_valued rfl rfl (by cbv)
  have parsed : Command.parse? ["index", "--seed=1", "/r"] = some ⟨none, .index seeded⟩ := by
    rw [Command.parse?_verb (by cbv) rfl, words]
    cbv
  have spelled : source.toPath = Path.ofString "/r/s/x.c" := by cbv
  have named : "--output=" ++ "/r/s/x.c" = "--output=/r/s/x.c" := by simp
  rw [spelled, ← named]
  exact Command.askAlike_of_parse? parsed (by simp)

theorem exists_scan_seeded : ∃ summary g, workspace.scan none seeded = .ok (summary, g) := by
  have found : Scanner.rootsOf workspace [Path.ofString "/r"] = .ok [top] :=
    Scanner.rootsOf_eq_ok_iff.2 ⟨List.cons_ne_nil _ _, .cons isRoot_top .nil⟩
  have read : readPatterns defaultPatterns = .ok defaultTokens :=
    readPatterns_eq_ok_iff.2 denotes_defaultPatterns
  have colors : ∃ options, (seeded.applyTo Settings.default).graphOptions = .ok options :=
    Settings.exists_graphOptions_seed (some 1) exists_graphOptions_settings
  have short : (seeded.applyTo Settings.default).RootsShort := by
    intro p hp
    obtain rfl := List.mem_singleton.1 hp
    decide
  obtain ⟨passed, within⟩ :=
    Workspace.check_eq_ok_iff.2 ⟨Workspace.runs_iff.2 ⟨⟨_, found⟩, ⟨_, read⟩, colors⟩, short⟩
  obtain ⟨summary, g, built⟩ := Workspace.exists_build_eq_ok passed within
  exact ⟨summary, g, Workspace.scan_eq_ok_iff.2 ⟨_, rfl, built⟩⟩

/-- The document of a scan is printed, and it is written over one of the files scanned. -/
theorem agree_seeded : ∃ text w',
    workspace.runArguments ["export", "--seed=1", "/r"] =
      (workspace, .ended (.print (text ++ "\n"))) ∧
    workspace.runArguments ["export", "--output=/r/s/x.c", "--seed=1", "/r"] =
      (w', .ended (.print "")) ∧
    w'.read source.toPath = .ok (Utf8.encode text) := by
  obtain ⟨summary, g, scanned⟩ := exists_scan_seeded
  have agree := workspace.commands_agree unseeded 1 askAlike_seeded
  obtain ⟨-, content, there, -⟩ := reads_source top
  obtain ⟨w', run, overwrites⟩ :=
    (agree.succeeds summary g scanned).written (Workspace.writable_toPath there)
  exact ⟨_, w', (agree.succeeds summary g scanned).printed, run, overwrites.read⟩

end Sample

end IncludeAtlas
