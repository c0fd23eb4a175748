/-!
# The files of the page

What a browser needs to show a graph: the page itself, and a script that fetches the
document and draws it.

## Main Definitions

* `Asset`: a file of the page
* `Asset.all`, `Asset.named?`: the files there are
-/

namespace IncludeAtlas

/-- A file of the page. -/
structure Asset where
  name : String
  contentType : String
  content : String
  deriving DecidableEq, Repr

namespace Asset

/-- A text with a line feed after every line. -/
def ofLines (lines : List String) : String :=
  String.join (lines.map fun l => l ++ "\n")

/-- The lines of the page. -/
def pageLines : List String :=
  ["<!DOCTYPE html>",
   "<html lang=\"en\">",
   "<head>",
   "  <meta charset=\"utf-8\">",
   "  <title>incgraph</title>",
   "  <style>",
   "    html, body \x7b margin: 0; height: 100%; background: #1c1c1e; color: #ddd; font-family: sans-serif; \x7d",
   "    #graph \x7b position: absolute; inset: 0; \x7d",
   "    #info \x7b position: absolute; top: 8px; left: 12px; font-size: 13px; pointer-events: none; \x7d",
   "    #groups \x7b position: absolute; top: 8px; right: 12px; font-size: 12px; max-height: 90%; overflow-y: auto; \x7d",
   "    #groups label \x7b display: block; cursor: pointer; \x7d",
   "  </style>",
   "</head>",
   "<body>",
   "  <div id=\"graph\"></div>",
   "  <div id=\"info\">loading…</div>",
   "  <div id=\"groups\"></div>",
   "  <script src=\"https://cdnjs.cloudflare.com/ajax/libs/sigma.js/1.2.1/sigma.min.js\"></script>",
   "  <script src=\"https://cdnjs.cloudflare.com/ajax/libs/sigma.js/1.2.1/plugins/sigma.layout.forceAtlas2.min.js\"></script>",
   "  <script src=\"graph.js\"></script>",
   "</body>",
   "</html>"]

/-- The lines of the script. -/
def scriptLines : List String :=
  ["// Renders graph.json (nodes with group/label/size/color, edges with source/target)",
   "(function () \x7b",
   "  'use strict';",
   "",
   "  var info = document.getElementById('info');",
   "  var groupsPanel = document.getElementById('groups');",
   "",
   "  function groupNames(nodes) \x7b",
   "    var seen = \x7b\x7d;",
   "    nodes.forEach(function (node) \x7b seen[node.group] = true; \x7d);",
   "    return Object.keys(seen).sort();",
   "  \x7d",
   "",
   "  function renderGroups(s, names) \x7b",
   "    names.forEach(function (name) \x7b",
   "      var label = document.createElement('label');",
   "      var box = document.createElement('input');",
   "      box.type = 'checkbox';",
   "      box.checked = true;",
   "      box.addEventListener('change', function () \x7b",
   "        s.graph.nodes().forEach(function (node) \x7b",
   "          if (node.group === name) \x7b",
   "            node.hidden = !box.checked;",
   "          \x7d",
   "        \x7d);",
   "        s.refresh();",
   "      \x7d);",
   "      label.appendChild(box);",
   "      label.appendChild(document.createTextNode(' ' + (name || '(none)')));",
   "      groupsPanel.appendChild(label);",
   "    \x7d);",
   "  \x7d",
   "",
   "  fetch('graph.json')",
   "    .then(function (response) \x7b return response.json(); \x7d)",
   "    .then(function (data) \x7b",
   "      data.nodes.forEach(function (node) \x7b node.id = String(node.id); \x7d);",
   "      data.edges.forEach(function (edge) \x7b",
   "        edge.id = String(edge.id);",
   "        edge.source = String(edge.source);",
   "        edge.target = String(edge.target);",
   "      \x7d);",
   "",
   "      var s = new sigma(\x7b",
   "        graph: data,",
   "        container: 'graph',",
   "        settings: \x7b",
   "          defaultEdgeType: 'curvedArrow',",
   "          minArrowSize: 6,",
   "          labelThreshold: 6,",
   "          defaultLabelColor: '#ddd'",
   "        \x7d",
   "      \x7d);",
   "",
   "      info.textContent = data.nodes.length + ' nodes, ' + data.edges.length + ' edges';",
   "      renderGroups(s, groupNames(data.nodes));",
   "",
   "      if (s.startForceAtlas2) \x7b",
   "        s.startForceAtlas2(\x7b worker: true, barnesHutOptimize: data.nodes.length > 500 \x7d);",
   "        setTimeout(function () \x7b s.stopForceAtlas2(); \x7d, 5000);",
   "      \x7d",
   "    \x7d)",
   "    .catch(function (err) \x7b",
   "      info.textContent = 'failed to load graph.json: ' + err;",
   "    \x7d);",
   "\x7d)();"]

/-- The page. -/
def page : Asset :=
  ⟨"index.html", "text/html", ofLines pageLines⟩

/-- The script of the page. -/
def script : Asset :=
  ⟨"graph.js", "text/javascript", ofLines scriptLines⟩

/-- All files of the page. -/
def all : List Asset :=
  [page, script]

/-- The file of a name. -/
def named? (name : String) : Option Asset :=
  all.find? fun a => a.name = name

end Asset

end IncludeAtlas
