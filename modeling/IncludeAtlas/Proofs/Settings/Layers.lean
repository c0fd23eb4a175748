import IncludeAtlas.Proofs.Command.Agreement
import IncludeAtlas.Proofs.Command.Flags
import IncludeAtlas.Proofs.FileTree.Canonical
import IncludeAtlas.Proofs.Settings.File
import IncludeAtlas.Proofs.Text.Utf8

/-!
# Settings in layers

Settings come from two places, a file and the command line, and what neither says is left to the
defaults.  The two places follow rules of their own: lists of the command line go on where those
of the file end, single values replace them, and what is switched on in either place is on.  This
module says that they meet: however settings are split between the places, what comes together is
the whole.

## Main Definitions

* `CutList`, `Chosen`, `SwitchedOn`: how a list, a single value and a switch are split
* `Settings.Splits`: how settings are split between a file and a command line
* `Workspace.Provides`: where the file is loaded from
* `Settings.Layers`: what settings come to that are split between the two

## Main Results

* `Settings.splits_iff`: what is put together is what was split
* `Settings.layers`: settings may be split in every way

## Design notes

A list that a file does not have is the default, and a list that it has is not added to the
default.  So the front of a list may be left out of the file exactly if it is the default.
-/

namespace IncludeAtlas

/-! ## How a single setting is split -/

section Split

variable {α : Type} {whole default front back : List α} {value initial : α}
  {list : Option (List α)} {inFile flag : Option α} {on : Bool} {said : Option Bool} {set : Bool}

/-- A list is cut into a front for the file and a back for the command line.  The front may be left
out if it is the default. -/
def CutList (whole default : List α) (list : Option (List α)) (back : List α) : Prop :=
  ∃ front, whole = front ++ back ∧ (list = some front ∨ list = none ∧ front = default)

/-- A value is on the command line, whatever the file has, or it is only in the file, or it is in
neither and is the default. -/
def Chosen (value initial : α) (inFile flag : Option α) : Prop :=
  flag = some value ∨ flag = none ∧ (inFile = some value ∨ inFile = none ∧ value = initial)

/-- A switch is on if it is switched on in the file, on the command line or in both. -/
def SwitchedOn (on : Bool) (said : Option Bool) (set : Bool) : Prop :=
  on = true ↔ said = some true ∨ set = true

theorem cutList_iff : CutList whole default list back ↔ list.getD default ++ back = whole := by
  constructor
  · rintro ⟨front, rfl, rfl | ⟨rfl, rfl⟩⟩
    · rfl
    · rfl
  · rintro rfl
    cases list with
    | none => exact ⟨default, rfl, .inr ⟨rfl, rfl⟩⟩
    | some front => exact ⟨front, rfl, .inl rfl⟩

theorem chosen_iff :
    Chosen value initial inFile flag ↔ flag.getD (inFile.getD initial) = value := by
  cases flag with
  | some x => simp [Chosen]
  | none =>
      cases inFile with
      | some x => simp [Chosen]
      | none => simp [Chosen, eq_comm]

theorem switchedOn_iff : SwitchedOn on said set ↔ (said.getD false || set) = on := by
  cases on <;> cases set <;> rcases said with _ | _ | _ <;> simp [SwitchedOn]

end Split

/-! ## How settings are split -/

namespace Settings

/-- Settings are split between a file and a command line. -/
structure Splits (S : Settings) (P : PartialSettings) (a : ScanArguments) : Prop where
  roots : CutList S.scan.roots [] (P.roots.map fun ss => ss.map Path.ofString) a.roots
  patterns : CutList S.scan.patterns defaultPatterns P.patterns a.patterns
  directories :
    CutList S.scan.directories [] (P.directories.map fun ss => ss.map Path.ofString) a.directories
  honorIgnoreFiles : SwitchedOn S.scan.honorIgnoreFiles P.honorIgnoreFiles a.honorIgnoreFiles
  relation : Chosen S.graph.relation GraphSettings.default.relation P.relation a.relation
  fullPath : SwitchedOn S.graph.fullPath P.fullPath a.fullPath
  granularity :
    Chosen S.graph.granularity GraphSettings.default.granularity P.granularity a.granularity
  seed : Chosen S.graph.seed none (P.seed.map some) (a.seed.map some)
  colors : Chosen S.graph.colors GraphSettings.default.colors P.colors a.colors
  variation : Chosen S.graph.variation GraphSettings.default.variation P.variation a.variation
  alphaMin : Chosen S.graph.alphaMin GraphSettings.default.alphaMin
    (P.alphaMin.map RealNumber.value) a.alphaMin

variable {S : Settings} {P : PartialSettings} {a : ScanArguments}

theorem getD_map_some {α : Type} (flag inFile : Option α) :
    (flag.map some).getD ((inFile.map some).getD none) = flag.or inFile := by
  cases flag <;> cases inFile <;> rfl

/-- **What is put together is what was split**, and nothing else is. -/
theorem splits_iff : Splits S P a ↔ a.applyTo P.settings = S := by
  constructor
  · rintro ⟨roots, patterns, directories, honor, relation, fullPath, granularity, seed, colors,
      variation, alphaMin⟩
    rw [cutList_iff] at roots patterns directories
    rw [switchedOn_iff] at honor fullPath
    rw [chosen_iff] at relation granularity seed colors variation alphaMin
    rw [getD_map_some] at seed
    obtain ⟨⟨_, _, _, _⟩, ⟨_, _, _, _, _, _, _⟩⟩ := S
    simp only at *
    subst roots patterns directories honor relation fullPath granularity seed colors variation
      alphaMin
    rfl
  · rintro rfl
    exact {
      roots := cutList_iff.2 rfl
      patterns := cutList_iff.2 rfl
      directories := cutList_iff.2 rfl
      honorIgnoreFiles := switchedOn_iff.2 rfl
      relation := chosen_iff.2 rfl
      fullPath := switchedOn_iff.2 rfl
      granularity := chosen_iff.2 rfl
      seed := chosen_iff.2 (getD_map_some _ _)
      colors := chosen_iff.2 rfl
      variation := chosen_iff.2 rfl
      alphaMin := chosen_iff.2 rfl }

end Settings

/-! ## Where the file is loaded from -/

namespace PartialSettings

/-- A file that says nothing. -/
def nothing : PartialSettings :=
  ⟨none, none, none, none, none, none, none, none, none, none, none⟩

variable (P : PartialSettings)

/-- A plain file with both tables and the keys in the order of the fields. -/
def sheet : Toml.Sheet :=
  ⟨[], P.tables.map fun t => (t.1, Toml.present t.2)⟩

theorem says_sheet : P.Says P.sheet.entries where
  distinct := by simp [Toml.Sheet.keys_entries, sheet, tables]
  tables := by
    intro e mem
    obtain ⟨t, there, rfl⟩ := List.mem_map.1 mem
    obtain ⟨t, table, rfl⟩ := List.mem_map.1 there
    exact ⟨t.2, table, _, rfl, .refl _⟩
  complete := by
    intro t table missing
    refine absurd ?_ missing
    rw [Toml.Sheet.keys_entries]
    simpa [sheet] using List.mem_map_of_mem (f := Prod.fst) table

/-- **Every file can be written.** -/
theorem exists_text (fits : P.Fits)
    (alpha : ∀ x, P.alphaMin = some (.float x) → ∃ t, Toml.Spells (.float x) t) :
    ∃ entries s, P.Says entries ∧ Toml.IsTextOf s entries := by
  obtain ⟨s, written⟩ := P.says_sheet.exists_written fits rfl alpha
  exact ⟨_, s, P.says_sheet, .inr ⟨_, rfl, written⟩⟩

end PartialSettings

namespace Workspace

variable {w : Workspace} {config : Option Path} {P : PartialSettings}

/-- The settings file, if there is one, can be read, and it says these settings. -/
inductive Provides (w : Workspace) : Option Path → PartialSettings → Prop
  | nothing : Provides w none .nothing
  | file {p : Path} {P : PartialSettings} {entries : List (String × Toml)} {s : String}
      (read : w.readText p = .ok s) (said : P.Says entries) (text : Toml.IsTextOf s entries) :
      Provides w (some p) P

/-- What a settings file says is what a command starts from. -/
theorem Provides.baseSettings_eq (h : w.Provides config P) (fits : P.Fits) :
    w.baseSettings config = .ok P.settings := by
  cases h with
  | nothing => rfl
  | file read said text =>
      rw [baseSettings, loadSettings, read]
      simp only [said.parse_eq_ok fits text]
      rfl

end Workspace

/-! ## Settings in layers -/

/-- What settings come to that are said in part by a file and in part by arguments. -/
structure Settings.Layers (S : Settings) (P : PartialSettings) (a : ScanArguments) : Prop where
  /-- Wherever the file is loaded from, the arguments make it the whole. -/
  whole : ∀ (w : Workspace) config, w.Provides config P →
    ∃ base, w.baseSettings config = .ok base ∧ a.applyTo base = S
  /-- The scan is that of the whole. -/
  scan : ∀ (w : Workspace) config, w.Provides config P → w.scan config a = w.build S
  /-- The file can be written, if its least alpha can be. -/
  written : (∀ x, P.alphaMin = some (.float x) → ∃ t, Toml.Spells (.float x) t) →
    ∃ entries s, P.Says entries ∧ Toml.IsTextOf s entries
  /-- The arguments can be said on a command line. -/
  said : ∀ F : Flags, F.Fits → F.arguments = a →
    Command.parse? ("index" :: F.line) = some ⟨F.config.map Path.ofString, .index a⟩

/-- **Settings may be split in every way.**  Wherever the file is loaded from, the arguments make it
the whole, and the scan is that of the whole.  The file can be written, and the arguments can be
said on a command line. -/
theorem Settings.layers {S : Settings} {P : PartialSettings} {a : ScanArguments} (fits : P.Fits)
    (split : S.Splits P a) : S.Layers P a where
  whole := fun _ _ provides => ⟨_, provides.baseSettings_eq fits, splits_iff.1 split⟩
  scan := by
    intro w config provides
    rw [Workspace.scan, provides.baseSettings_eq fits, ← splits_iff.1 split]
    rfl
  written := P.exists_text fits
  said := by
    rintro F flags rfl
    exact Flags.parse?_line flags

namespace Sample

/-- A tree with a settings file and nothing else, seen from its root. -/
def configured : Workspace where
  tree :=
    { entries := [([Utf8.encode "a.toml"], .file (Utf8.encode fewText))]
      ascending := by decide
      named := by decide
      rooted := by decide }
  directory := []

/-- The path of the settings file. -/
def configuration : Path :=
  Location.toPath [Utf8.encode "a.toml"]

theorem provides_few : configured.Provides (some configuration) few := by
  have found :
      configured.tree.shallow.lookup? [Utf8.encode "a.toml"] =
        some (.file (Utf8.encode fewText)) := by
    rfl
  have read : configured.readText configuration = .ok fewText := by
    rw [configuration, Workspace.readText_toPath found, Utf8.decode?_encode]
  exact .file read says_few isTextOf_fewText

/-- What is said besides the file. -/
def besides : ScanArguments :=
  ⟨[Path.ofString "test"], ["*.x"], [], none, some 3, true, none, none, none, some 7, false⟩

/-- All of it, said without a file. -/
def unfiled : ScanArguments :=
  ⟨[Path.ofString "src", Path.ofString "test"], ["*.x"], [], some .includes, some 3, true, none,
    none, none, some 7, false⟩

/-- The whole. -/
def together : Settings :=
  ⟨⟨[Path.ofString "src", Path.ofString "test"], defaultPatterns ++ ["*.x"], [], false⟩,
    { GraphSettings.default with
      relation := .includes, fullPath := true, granularity := 3, seed := some 7 }⟩

/-- A scan with a file and arguments is the scan with all of it in the arguments. -/
theorem layers_few : together.Splits few besides ∧ together.Splits .nothing unfiled ∧
    configured.scan (some configuration) besides = configured.build together ∧
    configured.scan none unfiled = configured.build together := by
  have split : together.Splits few besides := Settings.splits_iff.2 rfl
  have unsplit : together.Splits .nothing unfiled := Settings.splits_iff.2 rfl
  have fits : PartialSettings.nothing.Fits := ⟨fun _ => nofun, fun _ => nofun, fun _ => nofun⟩
  exact ⟨split, unsplit, (Settings.layers fits_few split).scan _ _ provides_few,
    (Settings.layers fits unsplit).scan configured _ .nothing⟩

end Sample

end IncludeAtlas
