import IncludeAtlas.Proofs.Traversal
import IncludeAtlas.Settings.Text
import Mathlib.Data.List.Nodup

/-!
# Settings with gaps

A settings file says as much as it likes: every key may be there or not, in any order, and either
table may be missing.  What it does not say is left to the defaults, key by key.

## Main Definitions

* `Toml.present`: the entries of those keys that have a value
* `PartialSettings`: what a file says
* `PartialSettings.settings`: the same with the defaults for the rest
* `PartialSettings.Says`: the tables of a file say this and nothing else

## Main Results

* `Toml.find?_of_perm`: the order of keys does not matter
* `ScanOptions.ofToml?_table_eq_some_iff`, `GraphSettings.ofToml?_table_eq_some_iff`: what a table
  says, key by key
* `PartialSettings.Says.ofToml?_eq`: a file is read as what it says

## Design notes

A missing table is read as the defaults, and so is a table without keys.  This is why a table may
be left out if nothing is said in it.
-/

namespace IncludeAtlas

/-! ## Tables with some of their keys -/

namespace Toml

variable {fields : List (String × Option Toml)} {es es' : List (String × Toml)} {key : String}
  {v : Toml}

/-- The entries of the keys that have a value. -/
def present (fields : List (String × Option Toml)) : List (String × Toml) :=
  fields.filterMap fun f => f.2.map (f.1, ·)

theorem mem_present_iff : (key, v) ∈ present fields ↔ (key, some v) ∈ fields := by
  simp only [present, List.mem_filterMap, Option.map_eq_some_iff, Prod.mk.injEq]
  constructor
  · rintro ⟨⟨k, o⟩, mem, _, rfl, rfl, rfl⟩
    exact mem
  · exact fun mem => ⟨_, mem, v, rfl, rfl, rfl⟩

/-- Keys that differ are still different if some of them have no value. -/
theorem nodup_present (distinct : (fields.map Prod.fst).Nodup) :
    ((present fields).map Prod.fst).Nodup := by
  refine distinct.sublist ?_
  clear distinct
  induction fields with
  | nil => exact List.Sublist.slnil
  | cons f fields ih =>
      obtain ⟨k, _ | v⟩ := f
      · exact ih.cons k
      · exact ih.cons_cons k

/-- The value of a key is that of its only entry. -/
theorem find?_eq_some_iff (distinct : (es.map Prod.fst).Nodup) :
    find? key es = some v ↔ (key, v) ∈ es := by
  induction es with
  | nil => simp [find?]
  | cons e es ih =>
      obtain ⟨k, w⟩ := e
      obtain ⟨new, others⟩ := List.nodup_cons.1 distinct
      by_cases same : k = key
      · subst same
        have absent : (k, v) ∉ es := fun mem => new (List.mem_map.2 ⟨_, mem, rfl⟩)
        simp [find?, absent, eq_comm]
      · have rest : find? key ((k, w) :: es) = find? key es := by
          simp [find?, same]
        rw [rest, ih others, List.mem_cons]
        simp [Ne.symm same]

theorem find?_eq_none_iff : find? key es = none ↔ key ∉ es.map Prod.fst := by
  simp only [find?, Option.map_eq_none_iff, List.find?_eq_none, List.mem_map, not_exists, not_and]
  simp

/-- **The order of keys does not matter.** -/
theorem find?_of_perm (distinct : (fields.map Prod.fst).Nodup) (perm : es.Perm (present fields))
    {o : Option Toml} (mem : (key, o) ∈ fields) : find? key es = o := by
  have keys : (es.map Prod.fst).Nodup := (perm.map _).nodup_iff.2 (nodup_present distinct)
  refine Option.ext fun v => ?_
  rw [find?_eq_some_iff keys, perm.mem_iff, mem_present_iff]
  constructor
  · intro there
    exact congrArg Prod.snd (List.inj_on_of_nodup_map distinct mem there rfl)
  · rintro rfl
    exact mem

theorem keys_of_perm (perm : es.Perm (present fields)) :
    ∀ e ∈ es, e.1 ∈ fields.map Prod.fst := by
  rintro ⟨k, v⟩ mem
  exact List.mem_map_of_mem (mem_present_iff.1 (perm.mem_iff.1 mem))

/-- The fields of a table whose keys are all known. -/
theorem fields?_table_eq_some_iff {names : List String} {os : List (Option Toml)} :
    fields? names (.table es) = some os ↔
      (∀ e ∈ es, e.1 ∈ names) ∧ names.map (find? · es) = os := by
  rw [fields?]
  split_ifs with known
  · simpa using fun _ => known
  · simpa using fun all => absurd (by simpa using all) known

variable {α β : Type} {read? : Toml → Option α}

/-- What is read of a key that may be missing. -/
theorem readOr_find? {encode : β → Toml} {decode : β → α} {o : Option β}
    (distinct : (fields.map Prod.fst).Nodup) (perm : es.Perm (present fields))
    (mem : (key, o.map encode) ∈ fields) (default : α)
    (reads : ∀ b ∈ o, read? (encode b) = some (decode b)) :
    readOr read? default (find? key es) = some ((o.map decode).getD default) := by
  rw [find?_of_perm distinct perm mem]
  cases o with
  | none => rfl
  | some b => exact reads b rfl

theorem readOr_find?_self {encode : α → Toml} {o : Option α}
    (distinct : (fields.map Prod.fst).Nodup) (perm : es.Perm (present fields))
    (mem : (key, o.map encode) ∈ fields) (default : α)
    (reads : ∀ a ∈ o, read? (encode a) = some a) :
    readOr read? default (find? key es) = some (o.getD default) := by
  rw [find?_of_perm distinct perm mem]
  cases o with
  | none => rfl
  | some a => exact reads a rfl

/-- A list of texts. -/
def ofTextList (ss : List String) : Toml :=
  .array (ss.map .text)

theorem list?_ofTextList {read? : Toml → Option α} {decode : String → α}
    (reads : ∀ s, read? (.text s) = some (decode s)) (ss : List String) :
    list? read? (ofTextList ss) = some (ss.map decode) := by
  rw [ofTextList, list?, List.mapM_map]
  exact mapM_eq_some_map fun s _ => reads s

end Toml

/-! ## What a file says -/

/-- A number as a file has it. -/
inductive RealNumber where
  | float (x : Float)
  | integer (n : Int)

/-- The value of a number. -/
def RealNumber.value : RealNumber → Float
  | .float x => x
  | .integer n => Binary.nearest (n < 0) n.natAbs 1

def RealNumber.toToml : RealNumber → Toml
  | .float x => .float x
  | .integer n => .integer n

/-- What a file said. -/
structure PartialSettings where
  roots : Option (List String)
  patterns : Option (List String)
  directories : Option (List String)
  honorIgnoreFiles : Option Bool
  relation : Option Relation
  fullPath : Option Bool
  granularity : Option Nat
  seed : Option UInt64
  colors : Option String
  variation : Option UInt32
  alphaMin : Option RealNumber

namespace PartialSettings

variable (P : PartialSettings)

/-- What is said about the scan, with the defaults for the rest. -/
def scan : ScanOptions where
  roots := (P.roots.map fun ss => ss.map Path.ofString).getD ScanOptions.default.roots
  patterns := P.patterns.getD ScanOptions.default.patterns
  directories :=
    (P.directories.map fun ss => ss.map Path.ofString).getD ScanOptions.default.directories
  honorIgnoreFiles := P.honorIgnoreFiles.getD ScanOptions.default.honorIgnoreFiles

/-- What is said about the graph, with the defaults for the rest. -/
def graph : GraphSettings where
  relation := P.relation.getD GraphSettings.default.relation
  fullPath := P.fullPath.getD GraphSettings.default.fullPath
  granularity := P.granularity.getD GraphSettings.default.granularity
  seed := P.seed
  colors := P.colors.getD GraphSettings.default.colors
  variation := P.variation.getD GraphSettings.default.variation
  alphaMin := (P.alphaMin.map RealNumber.value).getD GraphSettings.default.alphaMin

/-- What a file says, with the defaults for the rest. -/
def settings : Settings :=
  ⟨P.scan, P.graph⟩

/-- The keys about the scan and what they have. -/
def scanFields : List (String × Option Toml) :=
  [("roots", P.roots.map Toml.ofTextList), ("patterns", P.patterns.map Toml.ofTextList),
    ("prefixes", P.directories.map Toml.ofTextList),
    ("respect_ignore_files", P.honorIgnoreFiles.map .boolean)]

/-- The keys about the graph and what they have. -/
def graphFields : List (String × Option Toml) :=
  [("relation", P.relation.map fun r => .text r.name), ("full_path", P.fullPath.map .boolean),
    ("group_granularity", P.granularity.map fun (n : Nat) => .integer n),
    ("seed", P.seed.map fun n => .integer n.toNat), ("colors", P.colors.map .text),
    ("color_variation", P.variation.map fun n => .integer n.toNat),
    ("color_alpha_min", P.alphaMin.map RealNumber.toToml)]

/-- The tables and their keys. -/
def tables : List (String × List (String × Option Toml)) :=
  [("scan", P.scanFields), ("graph", P.graphFields)]

/-- The integers have 63 bits, so that a file can have them. -/
structure Fits : Prop where
  granularity : ∀ n ∈ P.granularity, (n : Int) ≤ Toml.integerMax
  seed : ∀ n ∈ P.seed, (n.toNat : Int) ≤ Toml.integerMax
  alphaMin : ∀ n, P.alphaMin = some (.integer n) → Toml.integerMin ≤ n ∧ n ≤ Toml.integerMax

/-- The tables of a file say this and nothing else.  Its tables and their keys stand in any order,
and a table without keys may be missing. -/
structure Says (entries : List (String × Toml)) : Prop where
  distinct : (entries.map Prod.fst).Nodup
  tables : ∀ e ∈ entries, ∃ fields, (e.1, fields) ∈ P.tables ∧
    ∃ es, e.2 = .table es ∧ es.Perm (Toml.present fields)
  complete : ∀ t ∈ P.tables, t.1 ∉ entries.map Prod.fst → Toml.present t.2 = []

end PartialSettings

section Read

variable {es : List (String × Toml)}

/-- What a table says about the scan. -/
theorem ScanOptions.ofToml?_table_eq_some_iff {o : ScanOptions} :
    ofToml? (.table es) = some o ↔
      (∀ e ∈ es, e.1 ∈ ["roots", "patterns", "prefixes", "respect_ignore_files"]) ∧
      Toml.readOr (Toml.list? Toml.path?) default.roots (Toml.find? "roots" es) = some o.roots ∧
      Toml.readOr (Toml.list? Toml.text?) default.patterns (Toml.find? "patterns" es) =
        some o.patterns ∧
      Toml.readOr (Toml.list? Toml.path?) default.directories (Toml.find? "prefixes" es) =
        some o.directories ∧
      Toml.readOr Toml.boolean? default.honorIgnoreFiles (Toml.find? "respect_ignore_files" es) =
        some o.honorIgnoreFiles := by
  rw [ofToml?, Option.bind_eq_bind, Option.bind_eq_some_iff]
  constructor
  · rintro ⟨os, fields, h⟩
    obtain ⟨known, rfl⟩ := Toml.fields?_table_eq_some_iff.1 fields
    simp only [List.map_cons, List.map_nil, Option.bind_eq_bind, Option.bind_eq_some_iff,
      Option.pure_def, Option.some.injEq] at h
    obtain ⟨roots, isRoots, patterns, arePatterns, directories, areDirectories, honor, isHonor,
      rfl⟩ := h
    exact ⟨known, isRoots, arePatterns, areDirectories, isHonor⟩
  · rintro ⟨known, roots, patterns, directories, honor⟩
    refine ⟨_, Toml.fields?_table_eq_some_iff.2 ⟨known, rfl⟩, ?_⟩
    simp [roots, patterns, directories, honor]

/-- What a table says about the graph. -/
theorem GraphSettings.ofToml?_table_eq_some_iff {o : GraphSettings} :
    ofToml? (.table es) = some o ↔
      (∀ e ∈ es, e.1 ∈ ["relation", "full_path", "group_granularity", "seed", "colors",
        "color_variation", "color_alpha_min"]) ∧
      Toml.readOr Toml.relation? default.relation (Toml.find? "relation" es) = some o.relation ∧
      Toml.readOr Toml.boolean? default.fullPath (Toml.find? "full_path" es) = some o.fullPath ∧
      Toml.readOr (Toml.natural? (UInt64.size - 1)) default.granularity
        (Toml.find? "group_granularity" es) = some o.granularity ∧
      Toml.readOr (fun v => (v.natural? (UInt64.size - 1)).map fun n => some n.toUInt64)
        default.seed (Toml.find? "seed" es) = some o.seed ∧
      Toml.readOr Toml.text? default.colors (Toml.find? "colors" es) = some o.colors ∧
      Toml.readOr (fun v => (v.natural? (UInt32.size - 1)).map Nat.toUInt32) default.variation
        (Toml.find? "color_variation" es) = some o.variation ∧
      Toml.readOr Toml.real? default.alphaMin (Toml.find? "color_alpha_min" es) =
        some o.alphaMin := by
  rw [ofToml?, Option.bind_eq_bind, Option.bind_eq_some_iff]
  constructor
  · rintro ⟨os, fields, h⟩
    obtain ⟨known, rfl⟩ := Toml.fields?_table_eq_some_iff.1 fields
    simp only [List.map_cons, List.map_nil, Option.bind_eq_bind, Option.bind_eq_some_iff,
      Option.pure_def, Option.some.injEq] at h
    obtain ⟨relation, isRelation, fullPath, isFullPath, granularity, isGranularity, seed, isSeed,
      colors, areColors, variation, isVariation, alphaMin, isAlphaMin, rfl⟩ := h
    exact ⟨known, isRelation, isFullPath, isGranularity, isSeed, areColors, isVariation, isAlphaMin⟩
  · rintro ⟨known, relation, fullPath, granularity, seed, colors, variation, alphaMin⟩
    refine ⟨_, Toml.fields?_table_eq_some_iff.2 ⟨known, rfl⟩, ?_⟩
    simp only [List.map_cons, List.map_nil, Option.bind_eq_bind, relation, fullPath, granularity,
      seed, colors, variation, alphaMin, Option.bind_some, Option.pure_def]

/-- What a table says about both. -/
theorem Settings.ofToml?_table_eq_some_iff {o : Settings} :
    ofToml? (.table es) = some o ↔ (∀ e ∈ es, e.1 ∈ ["scan", "graph"]) ∧
      Toml.readOr ScanOptions.ofToml? default.scan (Toml.find? "scan" es) = some o.scan ∧
      Toml.readOr GraphSettings.ofToml? default.graph (Toml.find? "graph" es) = some o.graph := by
  rw [ofToml?, Option.bind_eq_bind, Option.bind_eq_some_iff]
  constructor
  · rintro ⟨os, fields, h⟩
    obtain ⟨known, rfl⟩ := Toml.fields?_table_eq_some_iff.1 fields
    simp only [List.map_cons, List.map_nil, Option.bind_eq_bind, Option.bind_eq_some_iff,
      Option.pure_def, Option.some.injEq] at h
    obtain ⟨scan, isScan, graph, isGraph, rfl⟩ := h
    exact ⟨known, isScan, isGraph⟩
  · rintro ⟨known, scan, graph⟩
    refine ⟨_, Toml.fields?_table_eq_some_iff.2 ⟨known, rfl⟩, ?_⟩
    simp [scan, graph]

end Read

/-! ## Files that are read -/

namespace PartialSettings

variable {P : PartialSettings} {es entries : List (String × Toml)}

theorem relation?_text (r : Relation) : Toml.relation? (.text r.name) = some r := by
  rw [Toml.relation?, Relation.parse_name]
  rfl

theorem natural?_integer {n bound : Nat} (le : n ≤ bound) :
    Toml.natural? bound (.integer n) = some n := by
  rw [Toml.natural?, if_pos ⟨Int.natCast_nonneg n, Int.ofNat_le.2 le⟩, Int.toNat_natCast]

theorem natural?_granularity {n : Nat} (le : (n : Int) ≤ Toml.integerMax) :
    Toml.natural? (UInt64.size - 1) (.integer n) = some n := by
  have large : Toml.integerMax ≤ (UInt64.size - 1 : Nat) := by decide
  exact natural?_integer (Int.ofNat_le.1 (Int.le_trans le large))

theorem natural?_seed (n : UInt64) :
    (Toml.natural? (UInt64.size - 1) (.integer n.toNat)).map (fun n => some n.toUInt64) =
      some (some n) := by
  have le : n.toNat ≤ UInt64.size - 1 := Nat.le_sub_one_of_lt n.toNat_lt_size
  rw [natural?_integer le]
  simp

theorem natural?_variation (n : UInt32) :
    (Toml.natural? (UInt32.size - 1) (.integer n.toNat)).map Nat.toUInt32 = some n := by
  have le : n.toNat ≤ UInt32.size - 1 := Nat.le_sub_one_of_lt n.toNat_lt_size
  rw [natural?_integer le]
  simp

/-- The table about the scan is read as what it said. -/
theorem ofToml?_scan (perm : es.Perm (Toml.present P.scanFields)) :
    ScanOptions.ofToml? (.table es) = some P.scan := by
  have distinct : (P.scanFields.map Prod.fst).Nodup := by simp [scanFields]
  have paths : ∀ ss, Toml.list? Toml.path? (Toml.ofTextList ss) = some (ss.map Path.ofString) :=
    Toml.list?_ofTextList fun s => rfl
  have texts : ∀ ss, Toml.list? Toml.text? (Toml.ofTextList ss) = some ss := fun ss => by
    simpa using Toml.list?_ofTextList (fun s => show Toml.text? (.text s) = some (id s) from rfl) ss
  have roots : ("roots", P.roots.map Toml.ofTextList) ∈ P.scanFields := by simp [scanFields]
  have patterns : ("patterns", P.patterns.map Toml.ofTextList) ∈ P.scanFields := by
    simp [scanFields]
  have directories : ("prefixes", P.directories.map Toml.ofTextList) ∈ P.scanFields := by
    simp [scanFields]
  have honor : ("respect_ignore_files", P.honorIgnoreFiles.map .boolean) ∈ P.scanFields := by
    simp [scanFields]
  exact ScanOptions.ofToml?_table_eq_some_iff.2 ⟨Toml.keys_of_perm perm,
    Toml.readOr_find? distinct perm roots _ fun ss _ => paths ss,
    Toml.readOr_find?_self distinct perm patterns _ fun ss _ => texts ss,
    Toml.readOr_find? distinct perm directories _ fun ss _ => paths ss,
    Toml.readOr_find?_self distinct perm honor _ fun b _ => rfl⟩

/-- The table about the graph is read as what it said. -/
theorem ofToml?_graph (fits : P.Fits) (perm : es.Perm (Toml.present P.graphFields)) :
    GraphSettings.ofToml? (.table es) = some P.graph := by
  have distinct : (P.graphFields.map Prod.fst).Nodup := by simp [graphFields]
  have relation : ("relation", P.relation.map fun r => .text r.name) ∈ P.graphFields := by
    simp [graphFields]
  have fullPath : ("full_path", P.fullPath.map .boolean) ∈ P.graphFields := by
    simp [graphFields]
  have granularity : ("group_granularity", P.granularity.map fun (n : Nat) => .integer n) ∈
      P.graphFields := by
    simp [graphFields]
  have seed : ("seed", P.seed.map fun n => .integer n.toNat) ∈ P.graphFields := by
    simp [graphFields]
  have colors : ("colors", P.colors.map .text) ∈ P.graphFields := by simp [graphFields]
  have variation : ("color_variation", P.variation.map fun n => .integer n.toNat) ∈
      P.graphFields := by
    simp [graphFields]
  have alphaMin : ("color_alpha_min", P.alphaMin.map RealNumber.toToml) ∈ P.graphFields := by
    simp [graphFields]
  have whole : (P.seed.map some).getD none = P.seed := by cases P.seed <;> rfl
  refine GraphSettings.ofToml?_table_eq_some_iff.2 ⟨Toml.keys_of_perm perm,
    Toml.readOr_find?_self distinct perm relation _ fun r _ => relation?_text r,
    Toml.readOr_find?_self distinct perm fullPath _ fun b _ => rfl,
    Toml.readOr_find?_self distinct perm granularity _ fun n mem =>
      natural?_granularity (fits.granularity n mem),
    (Toml.readOr_find? distinct perm seed _ fun n _ => natural?_seed n).trans (congrArg some whole),
    Toml.readOr_find?_self distinct perm colors _ fun s _ => rfl,
    Toml.readOr_find?_self distinct perm variation _ fun n _ => natural?_variation n,
    Toml.readOr_find? distinct perm alphaMin _ fun x _ => ?_⟩
  cases x with
  | float x => rfl
  | integer n => rfl

/-- A table of the file is read as what it says, also if it is missing. -/
theorem Says.readOr_find? {α : Type} {name : String} {fields : List (String × Option Toml)}
    {read? : Toml → Option α} {default x : α} (said : P.Says entries)
    (table : (name, fields) ∈ P.tables)
    (reads : ∀ es, es.Perm (Toml.present fields) → read? (.table es) = some x)
    (empty : read? (.table []) = some default) :
    Toml.readOr read? default (Toml.find? name entries) = some x := by
  cases found : Toml.find? name entries with
  | none =>
      have none := said.complete _ table (Toml.find?_eq_none_iff.1 found)
      exact empty.symm.trans (reads [] (none ▸ .refl _))
  | some v =>
      have mem := (Toml.find?_eq_some_iff said.distinct).1 found
      obtain ⟨fields', table', es, rfl, perm⟩ := said.tables _ mem
      have one : (P.tables.map Prod.fst).Nodup := by simp [PartialSettings.tables]
      cases List.inj_on_of_nodup_map one table table' rfl
      exact reads es perm

/-- **A file is read as what it says**, with the defaults for the rest. -/
theorem Says.ofToml?_eq (said : P.Says entries) (fits : P.Fits) :
    Settings.ofToml? (.table entries) = some P.settings := by
  refine Settings.ofToml?_table_eq_some_iff.2 ⟨fun e mem => ?_, ?_, ?_⟩
  · obtain ⟨fields, table, -⟩ := said.tables e mem
    exact List.mem_map_of_mem (f := Prod.fst) table
  · exact said.readOr_find? (by simp [PartialSettings.tables]) (fun es => ofToml?_scan) rfl
  · exact said.readOr_find? (by simp [PartialSettings.tables]) (fun es => ofToml?_graph fits) rfl

end PartialSettings

end IncludeAtlas
