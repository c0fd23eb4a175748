import IncludeAtlas.Proofs.Settings.Partial
import IncludeAtlas.Proofs.Toml.Line
import IncludeAtlas.Proofs.Toml.Range

/-!
# Settings files are closed

A file of settings may be silent about any of its keys.  But a key that is not known where it
stands, or a value of another kind, is refused, and then nothing of the file is taken.

## Main Definitions

* `Settings.Kind`, `Settings.schema`: the keys and what they take
* `Settings.Spoiled`: a file with one fault
* `Toml.IsTextOf`: a text of a file

## Main Results

* `Settings.Spoiled.ofToml?_eq_none`: one fault spoils a file
* `PartialSettings.Says.exists_written`: what a file says can be written
* `PartialSettings.partial_and_closed`: settings files are partial, free in their order, and closed

## Design notes

Files are taken as the tables they are read as, however they are spelled.  Plain files are also
followed from how they are written: an integer of more than 64 bits has no table, and it is the
reading of the text that fails.
-/

namespace IncludeAtlas

/-! ## Files that are refused -/

namespace Settings

/-- What a key takes. -/
inductive Kind where
  | texts
  | text
  | boolean
  | relation
  | real
  | integer (bound : Int)

/-- A value is neither a list nor a table. -/
def IsScalar : Toml → Prop
  | .array _ | .table _ => False
  | _ => True

/-- A value is what a key takes. -/
def Kind.Fits : Kind → Toml → Prop
  | .texts, .array vs => ∀ v ∈ vs, ∃ s, v = .text s
  | .text, .text _ => True
  | .boolean, .boolean _ => True
  | .relation, .text s => s = "includes" ∨ s = "included-by"
  | .real, .float _ => True
  | .real, .integer _ => True
  | .integer bound, .integer n => 0 ≤ n ∧ n ≤ bound
  | _, _ => False

/-- The keys about the scan. -/
def scanKinds : List (String × Kind) :=
  [("roots", .texts), ("patterns", .texts), ("prefixes", .texts),
    ("respect_ignore_files", .boolean)]

/-- The keys about the graph.  No integer of a file has more than 63 bits and a sign. -/
def graphKinds : List (String × Kind) :=
  [("relation", .relation), ("full_path", .boolean),
    ("group_granularity", .integer Toml.integerMax), ("seed", .integer Toml.integerMax),
    ("colors", .text), ("color_variation", .integer (UInt32.size - 1)), ("color_alpha_min", .real)]

/-- The tables and their keys. -/
def schema : List (String × List (String × Kind)) :=
  [("scan", scanKinds), ("graph", graphKinds)]

/-- A file with one fault: a key that is not known beside the tables or in one of them, or a
scalar that a key does not take. -/
inductive Spoiled : List (String × Toml) → List (String × Toml) → Prop
  | outer {before after : List (String × Toml)} {k : String} {v : Toml}
      (unknown : k ∉ schema.map Prod.fst) : Spoiled (before ++ after) (before ++ (k, v) :: after)
  | inner {before after es es' : List (String × Toml)} {name k : String} {v : Toml}
      {kinds : List (String × Kind)} (table : (name, kinds) ∈ schema)
      (unknown : k ∉ kinds.map Prod.fst) :
      Spoiled (before ++ (name, .table (es ++ es')) :: after)
        (before ++ (name, .table (es ++ (k, v) :: es')) :: after)
  | misfit {before after es es' : List (String × Toml)} {name k : String} {v v' : Toml}
      {kinds : List (String × Kind)} {kind : Kind} (table : (name, kinds) ∈ schema)
      (known : (k, kind) ∈ kinds) (scalar : IsScalar v') (unfit : ¬ kind.Fits v') :
      Spoiled (before ++ (name, .table (es ++ (k, v) :: es')) :: after)
        (before ++ (name, .table (es ++ (k, v') :: es')) :: after)

/-- A reader takes no scalar but those that a key takes. -/
def Kind.Reads {α : Type} (kind : Kind) (read? : Toml → Option α) : Prop :=
  ∀ v, IsScalar v → v.InRange → ¬ kind.Fits v → read? v = none

theorem reads_texts {α : Type} (read? : Toml → Option α) :
    Kind.texts.Reads (Toml.list? read?) := by
  intro v scalar _ _
  cases v with
  | array vs => exact absurd scalar id
  | _ => rfl

theorem reads_text : Kind.text.Reads Toml.text? := by
  intro v _ _ unfit
  cases v with
  | text s => exact absurd trivial unfit
  | _ => rfl

theorem reads_boolean : Kind.boolean.Reads Toml.boolean? := by
  intro v _ _ unfit
  cases v with
  | boolean b => exact absurd trivial unfit
  | _ => rfl

theorem reads_relation : Kind.relation.Reads Toml.relation? := by
  intro v scalar _ unfit
  cases v with
  | text s =>
      obtain ⟨first, second⟩ := not_or.1 unfit
      rw [Toml.relation?, Relation.parse, if_neg first, if_neg second]
      rfl
  | table es => exact absurd scalar id
  | _ => rfl

theorem reads_real : Kind.real.Reads Toml.real? := by
  intro v _ _ unfit
  cases v with
  | float x => exact absurd trivial unfit
  | integer n => exact absurd trivial unfit
  | _ => rfl

/-- An integer key may take more than a file can have. -/
theorem reads_integer {bound : Int} {n : Nat} (le : bound ≤ n)
    (reach : n ≤ bound ∨ bound = Toml.integerMax) :
    (Kind.integer bound).Reads (Toml.natural? n) := by
  intro v _ range unfit
  cases v with
  | integer m =>
      rw [Toml.natural?, if_neg]
      rintro ⟨pos, small⟩
      refine unfit ⟨pos, ?_⟩
      rcases reach with reach | rfl
      · exact Int.le_trans small reach
      · exact (range m .integer).2
  | _ => rfl

theorem Kind.Reads.false_of_readOr {α : Type} {kind : Kind} {read? : Toml → Option α}
    {default x : α} {v : Toml} (reads : kind.Reads read?) (scalar : IsScalar v) (range : v.InRange)
    (unfit : ¬ kind.Fits v) (h : Toml.readOr read? default (some v) = some x) : False := by
  rw [Toml.readOr, reads v scalar range unfit] at h
  cases h

theorem Kind.Reads.map {α β : Type} {kind : Kind} {read? : Toml → Option α}
    (reads : kind.Reads read?) (f : α → β) : kind.Reads fun v => (read? v).map f := by
  intro v scalar range unfit
  show (read? v).map f = none
  rw [reads v scalar range unfit]
  rfl

section Misfit

variable {k : String} {kind : Kind} {v : Toml} {es : List (String × Toml)}

theorem ofToml?_scan_eq_none (found : Toml.find? k es = some v) (known : (k, kind) ∈ scanKinds)
    (scalar : IsScalar v) (range : v.InRange) (unfit : ¬ kind.Fits v) :
    ScanOptions.ofToml? (.table es) = none := by
  rw [Option.eq_none_iff_forall_ne_some]
  intro o h
  obtain ⟨-, roots, patterns, directories, honor⟩ := ScanOptions.ofToml?_table_eq_some_iff.1 h
  simp only [scanKinds, List.mem_cons, Prod.mk.injEq, List.not_mem_nil, or_false] at known
  rcases known with ⟨rfl, rfl⟩ | ⟨rfl, rfl⟩ | ⟨rfl, rfl⟩ | ⟨rfl, rfl⟩
  · exact (reads_texts _).false_of_readOr scalar range unfit (found ▸ roots)
  · exact (reads_texts _).false_of_readOr scalar range unfit (found ▸ patterns)
  · exact (reads_texts _).false_of_readOr scalar range unfit (found ▸ directories)
  · exact reads_boolean.false_of_readOr scalar range unfit (found ▸ honor)

theorem ofToml?_graph_eq_none (found : Toml.find? k es = some v) (known : (k, kind) ∈ graphKinds)
    (scalar : IsScalar v) (range : v.InRange) (unfit : ¬ kind.Fits v) :
    GraphSettings.ofToml? (.table es) = none := by
  rw [Option.eq_none_iff_forall_ne_some]
  intro o h
  obtain ⟨-, relation, fullPath, granularity, seed, colors, variation, alphaMin⟩ :=
    GraphSettings.ofToml?_table_eq_some_iff.1 h
  have large : (Kind.integer Toml.integerMax).Reads (Toml.natural? (UInt64.size - 1)) :=
    reads_integer (by decide) (.inr rfl)
  have small : (Kind.integer (UInt32.size - 1)).Reads (Toml.natural? (UInt32.size - 1)) :=
    reads_integer (by decide) (.inl (by decide))
  simp only [graphKinds, List.mem_cons, Prod.mk.injEq, List.not_mem_nil, or_false] at known
  rcases known with ⟨rfl, rfl⟩ | ⟨rfl, rfl⟩ | ⟨rfl, rfl⟩ | ⟨rfl, rfl⟩ | ⟨rfl, rfl⟩ | ⟨rfl, rfl⟩ |
    ⟨rfl, rfl⟩
  · exact reads_relation.false_of_readOr scalar range unfit (found ▸ relation)
  · exact reads_boolean.false_of_readOr scalar range unfit (found ▸ fullPath)
  · exact large.false_of_readOr scalar range unfit (found ▸ granularity)
  · exact (large.map _).false_of_readOr scalar range unfit (found ▸ seed)
  · exact reads_text.false_of_readOr scalar range unfit (found ▸ colors)
  · exact (small.map _).false_of_readOr scalar range unfit (found ▸ variation)
  · exact reads_real.false_of_readOr scalar range unfit (found ▸ alphaMin)

end Misfit

section Fault

variable {P : PartialSettings} {entries entries' es : List (String × Toml)} {name k : String}
  {kinds : List (String × Kind)}

/-- A table that cannot be read spoils the file. -/
theorem ofToml?_eq_none_of_table (table : (name, kinds) ∈ schema)
    (found : Toml.find? name entries = some (.table es))
    (scan : kinds = scanKinds → ScanOptions.ofToml? (.table es) = none)
    (graph : kinds = graphKinds → GraphSettings.ofToml? (.table es) = none) :
    ofToml? (.table entries) = none := by
  rw [Option.eq_none_iff_forall_ne_some]
  intro o h
  obtain ⟨-, isScan, isGraph⟩ := ofToml?_table_eq_some_iff.1 h
  simp only [schema, List.mem_cons, Prod.mk.injEq, List.not_mem_nil, or_false] at table
  rcases table with ⟨rfl, rfl⟩ | ⟨rfl, rfl⟩
  · rw [found, Toml.readOr, scan rfl] at isScan
    cases isScan
  · rw [found, Toml.readOr, graph rfl] at isGraph
    cases isGraph

/-- A key that is not known spoils its table. -/
theorem ofToml?_of_unknown {e : String × Toml} (mem : e ∈ es) :
    (e.1 ∉ scanKinds.map Prod.fst → ScanOptions.ofToml? (.table es) = none) ∧
      (e.1 ∉ graphKinds.map Prod.fst → GraphSettings.ofToml? (.table es) = none) := by
  constructor
  · intro unknown
    rw [Option.eq_none_iff_forall_ne_some]
    exact fun o h => unknown ((ScanOptions.ofToml?_table_eq_some_iff.1 h).1 e mem)
  · intro unknown
    rw [Option.eq_none_iff_forall_ne_some]
    exact fun o h => unknown ((GraphSettings.ofToml?_table_eq_some_iff.1 h).1 e mem)

theorem find?_middle {before after : List (String × Toml)} {v w : Toml}
    (distinct : ((before ++ (name, v) :: after).map Prod.fst).Nodup) :
    Toml.find? name (before ++ (name, w) :: after) = some w := by
  have same : ((before ++ (name, w) :: after).map Prod.fst).Nodup := by simpa using distinct
  exact (Toml.find?_eq_some_iff same).2 (List.mem_append_right _ List.mem_cons_self)

/-- **One fault spoils a file.** -/
theorem Spoiled.ofToml?_eq_none (spoiled : Spoiled entries entries') (said : P.Says entries)
    (range : (Toml.table entries').InRange) : ofToml? (.table entries') = none := by
  cases spoiled with
  | @outer before after k v unknown =>
      rw [Option.eq_none_iff_forall_ne_some]
      intro o h
      have known := (ofToml?_table_eq_some_iff.1 h).1
      exact unknown (known _ (List.mem_append_right _ List.mem_cons_self))
  | @inner before after es es' name k v kinds table unknown =>
      have mem : (k, v) ∈ es ++ (k, v) :: es' := List.mem_append_right _ List.mem_cons_self
      refine ofToml?_eq_none_of_table table (find?_middle said.distinct) ?_ ?_
      · rintro rfl
        exact (ofToml?_of_unknown mem).1 unknown
      · rintro rfl
        exact (ofToml?_of_unknown mem).2 unknown
  | @misfit before after es es' name k v v' kinds kind table known scalar unfit =>
      have within : v'.InRange := by
        have whole := Toml.inRange_table_iff.1 range _ (List.mem_append_right _ List.mem_cons_self)
        exact Toml.inRange_table_iff.1 whole _ (List.mem_append_right _ List.mem_cons_self)
      obtain ⟨fields, fields_mem, es₁, eq, perm⟩ :=
        said.tables _ (List.mem_append_right _ List.mem_cons_self)
      cases eq
      have distinct : ((es ++ (k, v) :: es').map Prod.fst).Nodup := by
        refine (perm.map _).nodup_iff.2 (Toml.nodup_present ?_)
        simp only [PartialSettings.tables, List.mem_cons, Prod.mk.injEq, List.not_mem_nil,
          or_false] at fields_mem
        rcases fields_mem with ⟨-, rfl⟩ | ⟨-, rfl⟩
        · simp [PartialSettings.scanFields]
        · simp [PartialSettings.graphFields]
      refine ofToml?_eq_none_of_table table (find?_middle said.distinct) ?_ ?_
      · rintro rfl
        exact ofToml?_scan_eq_none (find?_middle distinct) known scalar within unfit
      · rintro rfl
        exact ofToml?_graph_eq_none (find?_middle distinct) known scalar within unfit

end Fault

end Settings

/-! ## Texts of files -/

namespace Toml

/-- A text has these tables: it is read as them, or a plain file with them is written so. -/
def IsTextOf (s : String) (entries : List (String × Toml)) : Prop :=
  parse? s.toList = some (.table entries) ∨
    ∃ f : Sheet, f.entries = entries ∧ f.Written s.toList

theorem exists_joinLines {ls : List Line} (h : ∀ l ∈ ls, ∃ t, WritesLine l t) :
    ∃ ts, List.Forall₂ WritesLine ls ts := by
  induction ls with
  | nil => exact ⟨[], .nil⟩
  | cons l ls ih =>
      obtain ⟨⟨t, first⟩, others⟩ := List.forall_mem_cons.1 h
      obtain ⟨ts, rest⟩ := ih others
      exact ⟨t :: ts, .cons first rest⟩

/-- The lines of a plain file are its headers and assignments. -/
theorem Sheet.forall_lines {f : Sheet} {p : Line → Prop}
    (top : ∀ e ∈ f.top, p (.assignment [e.1] e.2)) (header : ∀ t ∈ f.tables, p (.header [t.1]))
    (inner : ∀ t ∈ f.tables, ∀ e ∈ t.2, p (.assignment [e.1] e.2)) : ∀ l ∈ f.lines, p l := by
  intro l mem
  rcases List.mem_append.1 mem with mem | mem
  · obtain ⟨e, there, rfl⟩ := List.mem_map.1 mem
    exact top e there
  · obtain ⟨t, table, mem⟩ := List.mem_flatMap.1 mem
    rcases List.mem_cons.1 mem with rfl | mem
    · exact header t table
    · obtain ⟨e, there, rfl⟩ := List.mem_map.1 mem
      exact inner t table e there

end Toml

namespace PartialSettings

variable {P : PartialSettings} {entries entries' : List (String × Toml)} {f : Toml.Sheet}
  {s key : String} {fields : List (String × Option Toml)}

theorem nodup_of_mem_tables (table : (key, fields) ∈ P.tables) :
    (fields.map Prod.fst).Nodup := by
  simp only [tables, List.mem_cons, Prod.mk.injEq, List.not_mem_nil, or_false] at table
  rcases table with ⟨-, rfl⟩ | ⟨-, rfl⟩
  · simp [scanFields]
  · simp [graphFields]

/-- A value that a file may have. -/
inductive Value (P : PartialSettings) : Toml → Prop
  | texts (ss : List String) : Value P (Toml.ofTextList ss)
  | text (s : String) : Value P (.text s)
  | boolean (b : Bool) : Value P (.boolean b)
  | integer {n : Int} (range : Toml.integerMin ≤ n ∧ n ≤ Toml.integerMax) : Value P (.integer n)
  | float {x : Float} (alphaMin : P.alphaMin = some (.float x)) : Value P (.float x)

theorem value_of_mem_scanFields {k : String} {v : Toml} (mem : (k, some v) ∈ P.scanFields) :
    Toml.IsBare k ∧ P.Value v := by
  simp only [scanFields, List.mem_cons, Prod.mk.injEq, List.not_mem_nil, or_false] at mem
  rcases mem with ⟨rfl, eq⟩ | ⟨rfl, eq⟩ | ⟨rfl, eq⟩ | ⟨rfl, eq⟩
  all_goals obtain ⟨a, -, rfl⟩ := Option.map_eq_some_iff.1 eq.symm
  · exact ⟨by decide, .texts a⟩
  · exact ⟨by decide, .texts a⟩
  · exact ⟨by decide, .texts a⟩
  · exact ⟨by decide, .boolean a⟩

theorem value_of_mem_graphFields (fits : P.Fits) {k : String} {v : Toml}
    (mem : (k, some v) ∈ P.graphFields) : Toml.IsBare k ∧ P.Value v := by
  have low : ∀ n : Nat, Toml.integerMin ≤ (n : Int) := fun n =>
    Int.le_trans (by decide) (Int.natCast_nonneg n)
  have small : ∀ n : UInt32, (n.toNat : Int) ≤ Toml.integerMax := fun n =>
    Int.le_trans (Int.ofNat_le.2 (Nat.le_of_lt n.toNat_lt_size)) (by decide)
  simp only [graphFields, List.mem_cons, Prod.mk.injEq, List.not_mem_nil, or_false] at mem
  rcases mem with ⟨rfl, eq⟩ | ⟨rfl, eq⟩ | ⟨rfl, eq⟩ | ⟨rfl, eq⟩ | ⟨rfl, eq⟩ | ⟨rfl, eq⟩ | ⟨rfl, eq⟩
  all_goals obtain ⟨a, given, rfl⟩ := Option.map_eq_some_iff.1 eq.symm
  · exact ⟨by decide, .text _⟩
  · exact ⟨by decide, .boolean a⟩
  · exact ⟨by decide, .integer ⟨low a, fits.granularity a given⟩⟩
  · exact ⟨by decide, .integer ⟨low a.toNat, fits.seed a given⟩⟩
  · exact ⟨by decide, .text a⟩
  · exact ⟨by decide, .integer ⟨low a.toNat, small a⟩⟩
  · cases a with
    | float x => exact ⟨by decide, .float given⟩
    | integer n => exact ⟨by decide, .integer (fits.alphaMin n given)⟩

theorem value_of_mem_tables (fits : P.Fits) (table : (key, fields) ∈ P.tables) {k : String}
    {v : Toml} (mem : (k, some v) ∈ fields) : Toml.IsBare k ∧ P.Value v := by
  simp only [tables, List.mem_cons, Prod.mk.injEq, List.not_mem_nil, or_false] at table
  rcases table with ⟨-, rfl⟩ | ⟨-, rfl⟩
  · exact value_of_mem_scanFields mem
  · exact value_of_mem_graphFields fits mem

/-- What a file says can be written, if its number can. -/
theorem Value.exists_writes {v : Toml} (h : P.Value v)
    (alpha : ∀ x, P.alphaMin = some (.float x) → ∃ t, Toml.Spells (.float x) t) :
    ∃ t, Toml.Writes v t := by
  cases h with
  | texts ss => exact ⟨_, .other (Toml.spells_ofTexts ss) nofun⟩
  | text s => exact ⟨_, .other (Toml.spells_quote s) nofun⟩
  | boolean b => exact ⟨_, .other (Toml.spells_ofBool b) nofun⟩
  | @integer n _ => exact ⟨_, .integer n⟩
  | @float x alphaMin =>
      obtain ⟨t, spells⟩ := alpha x alphaMin
      exact ⟨t, .other spells nofun⟩

/-- A table of a plain file that says something. -/
theorem Says.exists_table (said : P.Says f.entries) {t : String × List (String × Toml)}
    (mem : t ∈ f.tables) :
    ∃ fields, (t.1, fields) ∈ P.tables ∧ t.2.Perm (Toml.present fields) := by
  have entry : (t.1, Toml.table t.2) ∈ f.entries :=
    List.mem_append_right _ (List.mem_map.2 ⟨t, mem, rfl⟩)
  obtain ⟨fields, table, es, eq, perm⟩ := said.tables _ entry
  cases eq
  exact ⟨fields, table, perm⟩

/-- What a plain file says has no integer out of range. -/
theorem Says.inRange_lines (said : P.Says f.entries) (fits : P.Fits) :
    ∀ l ∈ f.lines, l.InRange := by
  refine Toml.Sheet.forall_lines ?_ (fun t _ _ _ => nofun) ?_
  · rintro ⟨k, v⟩ mem path n eq
    obtain ⟨_, _, _, isTable, -⟩ := said.tables _ (List.mem_append_left _ mem)
    cases isTable
    cases eq
  · rintro t mem ⟨k, v⟩ inside path n eq
    obtain ⟨fields, table, perm⟩ := said.exists_table mem
    have given := Toml.mem_present_iff.1 (perm.mem_iff.1 inside)
    cases eq
    cases (value_of_mem_tables fits table given).2 with
    | integer range => exact range

/-- **What a file says can be written**, with its tables and their keys in any order. -/
theorem Says.exists_written (said : P.Says f.entries) (fits : P.Fits) (top : f.top = [])
    (alpha : ∀ x, P.alphaMin = some (.float x) → ∃ t, Toml.Spells (.float x) t) :
    ∃ s : String, f.Written s.toList := by
  have distinct : f.Distinct := by
    constructor
    · rw [← f.keys_entries]
      exact said.distinct
    · intro t mem
      obtain ⟨fields, table, perm⟩ := said.exists_table mem
      exact (perm.map _).nodup_iff.2 (Toml.nodup_present (nodup_of_mem_tables table))
  have bare : ∀ t ∈ f.tables, Toml.IsBare t.1 := by
    intro t mem
    obtain ⟨fields, table, -⟩ := said.exists_table mem
    have names : ∀ name ∈ P.tables.map Prod.fst, Toml.IsBare name := by
      simp only [PartialSettings.tables, List.map_cons, List.map_nil]
      decide
    exact names _ (List.mem_map_of_mem (f := Prod.fst) table)
  have each : ∀ l ∈ f.lines, ∃ t, Toml.WritesLine l t := by
    refine Toml.Sheet.forall_lines (by simp [top]) (fun t mem => ⟨_, .header (bare t mem)⟩) ?_
    rintro t mem ⟨k, v⟩ inside
    obtain ⟨fields, table, perm⟩ := said.exists_table mem
    have given := Toml.mem_present_iff.1 (perm.mem_iff.1 inside)
    obtain ⟨key, value⟩ := value_of_mem_tables fits table given
    obtain ⟨t, written⟩ := value.exists_writes alpha
    exact ⟨_, .assignment key written⟩
  obtain ⟨ts, writes⟩ := Toml.exists_joinLines each
  exact ⟨String.ofList (Toml.joinLines ts), distinct, ts, writes, String.toList_ofList⟩

/-- A text of a file is read as what the file says. -/
theorem Says.parse_eq_ok (said : P.Says entries) (fits : P.Fits) (text : Toml.IsTextOf s entries) :
    Settings.parse s = .ok P.settings := by
  have read : Toml.parse? s.toList = some (.table entries) := by
    rcases text with read | ⟨f, rfl, written⟩
    · exact read
    · exact written.parse?_eq_some (said.inRange_lines fits)
  rw [Settings.parse, read, Option.bind_some, said.ofToml?_eq fits]

/-- A text of a file with one fault is refused. -/
theorem Says.parse_eq_error (said : P.Says entries) (spoiled : Settings.Spoiled entries entries')
    (text : Toml.IsTextOf s entries') : Settings.parse s = .error .badSettings := by
  have refused : Toml.parse? s.toList = some (.table entries') →
      Settings.parse s = .error .badSettings := by
    intro read
    rw [Settings.parse, read, Option.bind_some,
      spoiled.ofToml?_eq_none said (Toml.inRange_of_parse? read)]
  rcases text with read | ⟨f, rfl, written⟩
  · exact refused read
  · by_cases range : ∀ l ∈ f.lines, l.InRange
    · exact refused (written.parse?_eq_some range)
    · have none : Toml.parse? s.toList = none := written.parse?_eq_none (by simpa using range)
      rw [Settings.parse, none]
      rfl

/-- **Settings files are partial, free in their order, and closed.**  Whatever a file says of the
known keys, every text of it is read as this with the defaults for the rest, and there is such a
text for every order of its tables and their keys.  With a single fault there are no settings. -/
theorem partial_and_closed (P : PartialSettings) (fits : P.Fits) (said : P.Says entries) :
    (∀ s, Toml.IsTextOf s entries → Settings.parse s = .ok P.settings) ∧
      (∀ entries' s, Settings.Spoiled entries entries' → Toml.IsTextOf s entries' →
        Settings.parse s = .error .badSettings) ∧
      ∀ f : Toml.Sheet, f.top = [] → f.entries = entries →
        (∀ x, P.alphaMin = some (.float x) → ∃ t, Toml.Spells (.float x) t) →
        ∃ s : String, f.Written s.toList := by
  refine ⟨fun s => said.parse_eq_ok fits, fun entries' s => said.parse_eq_error, ?_⟩
  rintro f top rfl alpha
  exact said.exists_written fits top alpha

end PartialSettings

namespace Sample

/-- Some of what a file may say. -/
def few : PartialSettings where
  roots := some ["src"]
  patterns := none
  directories := none
  honorIgnoreFiles := none
  relation := some .includes
  fullPath := none
  granularity := some 1
  seed := none
  colors := none
  variation := none
  alphaMin := none

/-- A file that says this, with its tables and their keys in an order of its own. -/
def fewEntries : List (String × Toml) :=
  [("graph", .table [("group_granularity", .integer 1), ("relation", .text "includes")]),
    ("scan", .table [("roots", .array [.text "src"])])]

theorem says_few : few.Says fewEntries where
  distinct := by simp [fewEntries]
  tables := by
    simp only [fewEntries, List.forall_mem_cons]
    exact ⟨⟨_, .tail _ (.head _), _, rfl, .swap _ _ _⟩, ⟨_, .head _, _, rfl, .refl _⟩,
      List.forall_mem_nil _⟩
  complete := by simp [fewEntries, PartialSettings.tables]

theorem fits_few : few.Fits where
  granularity := by
    rintro _ ⟨⟩
    decide
  seed := fun _ => nofun
  alphaMin := fun _ => nofun

/-- The file with another granularity, and with a seed in the table of the scan if there is one to
be put there. -/
def fewSheet (granularity : Int) (seed : Option Int) : Toml.Sheet where
  top := []
  tables := [
    ("graph", [("group_granularity", .integer granularity), ("relation", .text "includes")]),
    ("scan", seed.toList.map (fun n => ("seed", .integer n)) ++
      [("roots", .array [.text "src"])])]

/-- The file as it is written, line by line. -/
def fewLines (granularity : Int) (seed : Option Int) : List (List Char) :=
  [Toml.header "graph", Toml.assignment "group_granularity" (Toml.ofInt granularity),
    Toml.assignment "relation" (Toml.quote "includes"), Toml.header "scan"] ++
  seed.toList.map (fun n => Toml.assignment "seed" (Toml.ofInt n)) ++
  [Toml.assignment "roots" (Toml.ofTexts ["src"])]

theorem isTextOf_fewLines (granularity : Int) (seed : Option Int) {s : String}
    (text : s.toList = Toml.joinLines (fewLines granularity seed)) :
    Toml.IsTextOf s (fewSheet granularity seed).entries := by
  have bare : ∀ key ∈ ["graph", "group_granularity", "relation", "scan", "seed", "roots"],
      Toml.IsBare key := by
    decide
  simp only [List.forall_mem_cons] at bare
  obtain ⟨graph, group, relation, scan, hasSeed, roots, -⟩ := bare
  have last : Toml.WritesLine (.assignment ["roots"] (.array [.text "src"])) _ :=
    .assignment roots (.other (Toml.spells_ofTexts ["src"]) nofun)
  refine .inr ⟨_, rfl, ⟨?_, ?_⟩, fewLines granularity seed, ?_, text⟩
  · simp [fewSheet]
  · cases seed <;> simp [fewSheet]
  · refine .cons (.header graph) (.cons (.assignment group (.integer _)) (.cons (.assignment relation
      (.other (Toml.spells_quote "includes") nofun)) (.cons (.header scan) ?_)))
    cases seed with
    | none => exact .cons last .nil
    | some n => exact .cons (.assignment hasSeed (.integer n)) (.cons last .nil)

/-- A text of the file. -/
def fewText : String :=
  "[graph]\ngroup_granularity = 1\nrelation = \"includes\"\n[scan]\nroots = [\"src\"]\n"

theorem isTextOf_fewText : Toml.IsTextOf fewText fewEntries :=
  isTextOf_fewLines 1 none (by decide)

/-- The file is read, and it is refused with a negative integer or with a key of the other
table. -/
theorem partial_and_closed_few :
    Settings.parse fewText = .ok few.settings ∧
      Settings.parse ("[graph]\ngroup_granularity = -1\nrelation = \"includes\"\n" ++
        "[scan]\nroots = [\"src\"]\n") = .error .badSettings ∧
      Settings.parse ("[graph]\ngroup_granularity = 1\nrelation = \"includes\"\n" ++
        "[scan]\nseed = 1\nroots = [\"src\"]\n") = .error .badSettings := by
  obtain ⟨reads, refuses, -⟩ := few.partial_and_closed fits_few says_few
  refine ⟨reads _ isTextOf_fewText,
    refuses _ _ ?_ (isTextOf_fewLines (-1) none (by decide)),
    refuses _ _ ?_ (isTextOf_fewLines 1 (some 1) (by decide))⟩
  · exact @Settings.Spoiled.misfit [] _ [] _ "graph" "group_granularity" _ (.integer (-1)) _ _
      (.tail _ (.head _)) (.tail _ (.tail _ (.head _))) trivial (by simp [Settings.Kind.Fits])
  · exact @Settings.Spoiled.inner [_] [] [] _ "scan" "seed" (.integer 1) _ (.head _) (by decide)

end Sample

end IncludeAtlas
