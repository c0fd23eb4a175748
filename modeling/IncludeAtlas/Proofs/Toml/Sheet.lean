import IncludeAtlas.Toml.Document
import Mathlib.Data.List.Nodup

/-!
# Plain files

Many files of TOML are plain: assignments come first, then tables with a header each and
assignments of their own, and no key has a point in it.  This module says which table the lines
of a plain file build up.

## Main Definitions

* `Sheet`: a plain file
* `Sheet.lines`: its lines
* `Sheet.toToml`: what it says
* `Sheet.Distinct`: no table has a key twice

## Main Results

* `Section.alter?_append`: what is under construction does not change before the key
* `Sheet.ofLines?_lines`: the lines of a plain file build up what it says

## Design notes

The lines are followed one by one.  Before each of them the table under construction is that of
the lines before it, and the place is that of the header seen last, which is the last entry.
-/

namespace IncludeAtlas.Toml

/-- A plain file: assignments, and tables with assignments. -/
structure Sheet where
  top : List (String × Toml)
  tables : List (String × List (String × Toml))

variable {key : String} {es es' : List (String × Toml)}

namespace Section

/-- The entries of a plain table under construction. -/
def ofEntries (es : List (String × Toml)) : Section :=
  es.map fun e => (e.1, .value e.2)

/-- The entries of plain tables with headers. -/
def ofTables (ts : List (String × List (String × Toml))) : Section :=
  ts.map fun t => (t.1, .table .header (ofEntries t.2))

variable {t t' : Section} {change : Option Item → Option Item}

@[simp] theorem keys_ofEntries : (ofEntries es).map Prod.fst = es.map Prod.fst := by
  simp [ofEntries]

@[simp] theorem keys_ofTables {ts : List (String × List (String × Toml))} :
    (ofTables ts).map Prod.fst = ts.map Prod.fst := by
  simp [ofTables]

/-- **What is under construction does not change before the key.** -/
theorem alter?_append (h : key ∉ t.map Prod.fst) :
    alter? key change (t ++ t') = (alter? key change t').map (t ++ ·) := by
  induction t with
  | nil => simp
  | cons e t ih =>
      rw [List.map_cons, List.mem_cons, not_or] at h
      rw [List.cons_append, alter?, if_neg (Ne.symm h.1), ih h.2, Option.map_map]
      rfl

theorem alter?_of_notMem (h : key ∉ t.map Prod.fst) :
    alter? key change t = (change none).map fun i => t ++ [(key, i)] := by
  have last : alter? key change (t ++ []) = (alter? key change []).map (t ++ ·) := alter?_append h
  rw [List.append_nil] at last
  rw [last, alter?, Option.map_map]
  rfl

theorem assign?_of_notMem (v : Toml) (h : key ∉ t.map Prod.fst) :
    t.assign? [] key v = some (t ++ [(key, .value v)]) := by
  rw [assign?, within?, if_neg (by simp), alter?_of_notMem h]
  rfl

theorem open?_of_notMem (h : key ∉ t.map Prod.fst) :
    t.open? [] key = some (t ++ [(key, .table .header [])]) := by
  rw [open?, within?, alter?_of_notMem h]
  rfl

/-- An assignment goes into the table whose header was seen last. -/
theorem addLine?_assignment (v : Toml) {name : String} (outer : name ∉ t.map Prod.fst)
    (h : key ∉ t'.map Prod.fst) :
    addLine? (t ++ [(name, .table .header t')], [name]) (.assignment [key] v) =
      some (t ++ [(name, .table .header (t' ++ [(key, .value v)]))], [name]) := by
  have inner : t'.assign? [] key v = some (t' ++ [(key, .value v)]) := assign?_of_notMem v h
  simp [addLine?, within?, alter?_append outer, alter?, inner]

end Section

namespace Sheet

open Section (ofEntries ofTables addLine?)

/-- The lines of assignments. -/
def assignments (es : List (String × Toml)) : List Line :=
  es.map fun e => .assignment [e.1] e.2

/-- The lines of tables. -/
def tableLines (ts : List (String × List (String × Toml))) : List Line :=
  ts.flatMap fun t => .header [t.1] :: assignments t.2

/-- The lines of a plain file. -/
def lines (f : Sheet) : List Line :=
  assignments f.top ++ tableLines f.tables

/-- The entries of a plain file. -/
def entries (f : Sheet) : List (String × Toml) :=
  f.top ++ f.tables.map fun t => (t.1, .table t.2)

/-- What a plain file says. -/
def toToml (f : Sheet) : Toml :=
  .table f.entries

theorem keys_entries (f : Sheet) :
    f.entries.map Prod.fst = f.top.map Prod.fst ++ f.tables.map Prod.fst := by
  simp [entries, Function.comp_def]

/-- No table has a key twice. -/
structure Distinct (f : Sheet) : Prop where
  outer : (f.top.map Prod.fst ++ f.tables.map Prod.fst).Nodup
  inner : ∀ t ∈ f.tables, (t.2.map Prod.fst).Nodup

variable {t : Section} {name : String} {ts : List (String × List (String × Toml))} {f : Sheet}

theorem notMem_of_nodup {ks ks' : List String} (h : (ks ++ key :: ks').Nodup) : key ∉ ks :=
  fun mem => (List.nodup_cons.1 (List.nodup_middle.1 h)).1 (List.mem_append_left _ mem)

/-- Assignments at the top are added one after another. -/
theorem foldlM_top (distinct : (t.map Prod.fst ++ es.map Prod.fst).Nodup) :
    (assignments es).foldlM addLine? (t, []) = some (t ++ ofEntries es, []) := by
  induction es generalizing t with
  | nil => simp [assignments, ofEntries]
  | cons e es ih =>
      have new : e.1 ∉ t.map Prod.fst := notMem_of_nodup distinct
      have first : addLine? (t, []) (.assignment [e.1] e.2) =
          some (t ++ [(e.1, .value e.2)], []) := by
        simp [addLine?, Section.within?, Section.assign?_of_notMem e.2 new]
      have rest : ((t ++ [(e.1, Item.value e.2)]).map Prod.fst ++ es.map Prod.fst).Nodup := by
        simpa using distinct
      rw [assignments, List.map_cons, List.foldlM_cons, first]
      show (assignments es).foldlM addLine? (t ++ [(e.1, .value e.2)], []) = _
      rw [ih rest, List.append_assoc]
      rfl

/-- Assignments in a table are added one after another. -/
theorem foldlM_table {t' : Section} (outer : name ∉ t.map Prod.fst)
    (distinct : (t'.map Prod.fst ++ es.map Prod.fst).Nodup) :
    (assignments es).foldlM addLine? (t ++ [(name, .table .header t')], [name]) =
      some (t ++ [(name, .table .header (t' ++ ofEntries es))], [name]) := by
  induction es generalizing t' with
  | nil => simp [assignments, ofEntries]
  | cons e es ih =>
      have new : e.1 ∉ t'.map Prod.fst := notMem_of_nodup distinct
      have rest : ((t' ++ [(e.1, Item.value e.2)]).map Prod.fst ++ es.map Prod.fst).Nodup := by
        simpa using distinct
      rw [assignments, List.map_cons, List.foldlM_cons, Section.addLine?_assignment e.2 outer new]
      show (assignments es).foldlM addLine?
        (t ++ [(name, .table .header (t' ++ [(e.1, .value e.2)]))], [name]) = _
      rw [ih rest, List.append_assoc]
      rfl

/-- Tables are added one after another. -/
theorem foldlM_tables {place : List String}
    (outer : (t.map Prod.fst ++ ts.map Prod.fst).Nodup)
    (inner : ∀ e ∈ ts, (e.2.map Prod.fst).Nodup) :
    ∃ place', (tableLines ts).foldlM addLine? (t, place) = some (t ++ ofTables ts, place') := by
  induction ts generalizing t place with
  | nil => exact ⟨place, by simp [tableLines, ofTables]⟩
  | cons e ts ih =>
      have new : e.1 ∉ t.map Prod.fst := notMem_of_nodup outer
      have opened : addLine? (t, place) (.header [e.1]) =
          some (t ++ [(e.1, .table .header [])], [e.1]) := by
        simp [addLine?, Section.open?_of_notMem new]
      have filled : (assignments e.2).foldlM addLine? (t ++ [(e.1, .table .header [])], [e.1]) =
          some (t ++ [(e.1, .table .header ([] ++ ofEntries e.2))], [e.1]) :=
        foldlM_table new (by simpa using inner e List.mem_cons_self)
      have rest : ((t ++ [(e.1, Item.table .header (ofEntries e.2))]).map Prod.fst ++
          ts.map Prod.fst).Nodup := by
        simpa using outer
      obtain ⟨place', built⟩ := @ih _ [e.1] rest fun u mem => inner u (List.mem_cons_of_mem e mem)
      refine ⟨place', ?_⟩
      rw [tableLines, List.flatMap_cons, List.foldlM_append, List.foldlM_cons, opened]
      show ((assignments e.2).foldlM addLine? (t ++ [(e.1, .table .header [])], [e.1])).bind _ = _
      rw [filled]
      show (tableLines ts).foldlM addLine? _ = _
      rw [List.nil_append, built, List.append_assoc]
      rfl

theorem entriesToToml_append (t t' : Section) :
    entriesToToml (t ++ t') = entriesToToml t ++ entriesToToml t' := by
  induction t with
  | nil => rfl
  | cons e t ih => rw [List.cons_append, entriesToToml, entriesToToml, ih, List.cons_append]

theorem entriesToToml_ofEntries : entriesToToml (ofEntries es) = es := by
  induction es with
  | nil => rfl
  | cons e es ih =>
      rw [ofEntries, List.map_cons, entriesToToml, ← ofEntries, ih]
      rfl

theorem entriesToToml_ofTables :
    entriesToToml (ofTables ts) = ts.map fun t => (t.1, .table t.2) := by
  induction ts with
  | nil => rfl
  | cons t ts ih =>
      rw [ofTables, List.map_cons, entriesToToml, ← ofTables, ih, Item.toToml,
        entriesToToml_ofEntries, List.map_cons]

/-- **The lines of a plain file build up what it says**, if no table has a key twice. -/
theorem ofLines?_lines (distinct : f.Distinct) :
    (Section.ofLines? f.lines).map Section.toToml = some f.toToml := by
  have top : (assignments f.top).foldlM addLine? ([], []) = some (ofEntries f.top, []) :=
    foldlM_top (by simpa using (List.nodup_append.1 distinct.outer).1)
  obtain ⟨place, tables⟩ : ∃ place, (tableLines f.tables).foldlM addLine? (ofEntries f.top, []) =
      some (ofEntries f.top ++ ofTables f.tables, place) :=
    foldlM_tables (by simpa using distinct.outer) distinct.inner
  have all : f.lines.foldlM addLine? ([], []) =
      some (ofEntries f.top ++ ofTables f.tables, place) := by
    rw [lines, List.foldlM_append, top]
    exact tables
  rw [Section.ofLines?, all]
  show some (Section.toToml (ofEntries f.top ++ ofTables f.tables)) = _
  rw [Section.toToml, entriesToToml_append, entriesToToml_ofEntries, entriesToToml_ofTables]
  rfl

end Sheet

end IncludeAtlas.Toml
