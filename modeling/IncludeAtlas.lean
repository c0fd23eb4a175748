import IncludeAtlas.Main
import IncludeAtlas.Page.Response
import IncludeAtlas.Proofs.Document.Text
import IncludeAtlas.Proofs.FileTree.Canonical
import IncludeAtlas.Proofs.FileTree.Spelling
import IncludeAtlas.Proofs.Graph.Coherence
import IncludeAtlas.Proofs.Graph.History
import IncludeAtlas.Proofs.Graph.Numbering
import IncludeAtlas.Proofs.Json.Layout
import IncludeAtlas.Proofs.Json.Number
import IncludeAtlas.Proofs.Json.Parser
import IncludeAtlas.Proofs.Json.Token
import IncludeAtlas.Proofs.Scan.Enumeration
import IncludeAtlas.Proofs.Scan.Grounding
import IncludeAtlas.Proofs.Scan.Include
import IncludeAtlas.Proofs.Scan.Order
import IncludeAtlas.Proofs.Scan.Specification
import IncludeAtlas.Proofs.Scan.Weight
import IncludeAtlas.Proofs.Settings.Check
import IncludeAtlas.Proofs.Graph.Draw
import IncludeAtlas.Proofs.Graph.Run
import IncludeAtlas.Proofs.Graph.Independence
import IncludeAtlas.Proofs.Graph.Growth
import IncludeAtlas.Proofs.Scan.Composition
import IncludeAtlas.Proofs.Scan.Failure
import IncludeAtlas.Proofs.Text.Lines
import IncludeAtlas.Proofs.Text.Directive
import IncludeAtlas.Proofs.Glob.Match
import IncludeAtlas.Proofs.Scan.DefaultPatterns
import IncludeAtlas.Proofs.Scan.Once
import IncludeAtlas.Proofs.Command.Agreement
import IncludeAtlas.Proofs.Page.Surface
import IncludeAtlas.Proofs.FileTree.Follow
import IncludeAtlas.Proofs.FileTree.Tour
import IncludeAtlas.Proofs.Scan.Landing
import IncludeAtlas.Proofs.Scan.Sighting
import IncludeAtlas.Proofs.Graph.Respelling
import IncludeAtlas.Proofs.Graph.Commutation
import IncludeAtlas.Proofs.Scan.Repetition
import IncludeAtlas.Proofs.Scan.Unresolved
import IncludeAtlas.Proofs.Scan.Account
import IncludeAtlas.Proofs.Ignore.Filter
import IncludeAtlas.Proofs.Scan.Pruning
import IncludeAtlas.Proofs.Text.Assembly
import IncludeAtlas.Proofs.Scan.Precedence
import IncludeAtlas.Proofs.Json.Blanks
import IncludeAtlas.Proofs.Text.Utf8
import IncludeAtlas.Proofs.Page.Export
import IncludeAtlas.Proofs.Path.Normal
import IncludeAtlas.Proofs.Path.Label
import IncludeAtlas.Proofs.Palette.Base
import IncludeAtlas.Proofs.Json.Grammar
import IncludeAtlas.Proofs.Json.Record
import IncludeAtlas.Proofs.Document.Tolerance
import IncludeAtlas.Proofs.Toml.Sheet
import IncludeAtlas.Proofs.Toml.Value
import IncludeAtlas.Proofs.Toml.Line
import IncludeAtlas.Proofs.Toml.Range
import IncludeAtlas.Proofs.Settings.File
import IncludeAtlas.Proofs.Command.Flags
import IncludeAtlas.Proofs.Settings.Layers
import IncludeAtlas.Proofs.FileTree.Making
import IncludeAtlas.Proofs.Path.Order
import IncludeAtlas.Proofs.Scan.IncludeSet
