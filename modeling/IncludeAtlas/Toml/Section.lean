import IncludeAtlas.Toml.Basic

/-!
# Tables under construction

The tables that headers and keys with points build up.  How a table came about decides
who may add to it: a table with a header is complete when the next header comes, one that
was only passed on the way to another may still get a header of its own, and one that keys
with points made can only grow by such keys and by headers below it.

## Main Definitions

* `Origin`: how a table came about
* `Item`: what a key stands for while tables grow
* `Section.within?`: changes the table at a place
* `Section.assign?`: gives a key a value
* `Section.open?`, `Section.append?`: starts a table, or the next table of an array
* `Section.toToml`: the finished table

## Design notes

A place that leads through an array of tables leads through its last table.  Values are
closed: nothing is added to an array or an inline table once it is read.
-/

namespace IncludeAtlas.Toml

/-- How a table came about. -/
inductive Origin where
  /-- By a header, or as the table of the whole text. -/
  | header
  /-- On the way to a table with a header. -/
  | passed
  /-- By a key with points. -/
  | dotted
  deriving DecidableEq, Repr

/-- What a key stands for while tables grow.  An array of tables consists of complete
tables and a last one. -/
inductive Item where
  | value (v : Toml)
  | table (origin : Origin) (entries : List (String × Item))
  | tables (complete : List (List (String × Item))) (last : List (String × Item))

/-- The entries of a table under construction. -/
abbrev Section := List (String × Item)

namespace Section

/-- Changes what a key stands for, with `none` for a key that is not there yet. -/
def alter? (key : String) (change : Option Item → Option Item) : Section → Option Section
  | [] => (change none).map fun i => [(key, i)]
  | (k, i) :: rest =>
    if k = key then (change (some i)).map fun j => (k, j) :: rest
    else (alter? key change rest).map ((k, i) :: ·)

/-- Changes the table at a place.  Tables on the way are made if they are not there;
those that `way` makes are dotted or passed, and dotted keys lead into no table with a
header. -/
def within? (way : Origin) (change : Origin → Section → Option Section) :
    Origin → List String → Section → Option Section
  | origin, [], t => change origin t
  | _, k :: ks, t => t.alter? k fun
    | none => (within? way change way ks []).map (.table way)
    | some (.value _) => none
    | some (.table origin t) =>
      if way = .dotted ∧ origin = .header then none
      else (within? way change origin ks t).map (.table origin)
    | some (.tables complete last) =>
      (within? way change .header ks last).map (.tables complete)

/-- Gives a key, reached by dotted keys, a value.  The key has to be new. -/
def assign? (path : List String) (key : String) (v : Toml) (t : Section) : Option Section :=
  within? .dotted (fun origin t =>
    if path ≠ [] ∧ origin ≠ .dotted then none
    else t.alter? key fun
      | none => some (.value v)
      | some _ => none) .header path t

/-- Gives the table at a place a header. -/
def open? (path : List String) (key : String) (t : Section) : Option Section :=
  within? .passed (fun _ t => t.alter? key fun
    | none => some (.table .header [])
    | some (.table .passed t) => some (.table .header t)
    | some _ => none) .header path t

/-- Starts the next table of the array of tables at a place. -/
def append? (path : List String) (key : String) (t : Section) : Option Section :=
  within? .passed (fun _ t => t.alter? key fun
    | none => some (.tables [] [])
    | some (.tables complete last) => some (.tables (complete ++ [last]) [])
    | some _ => none) .header path t

end Section

mutual

/-- The value of an item. -/
def Item.toToml : Item → Toml
  | .value v => v
  | .table _ entries => .table (entriesToToml entries)
  | .tables complete last =>
    .array (tablesToToml complete ++ [.table (entriesToToml last)])

/-- The values of entries. -/
def entriesToToml : List (String × Item) → List (String × Toml)
  | [] => []
  | (k, i) :: rest => (k, i.toToml) :: entriesToToml rest

/-- The values of tables. -/
def tablesToToml : List (List (String × Item)) → List Toml
  | [] => []
  | t :: rest => .table (entriesToToml t) :: tablesToToml rest

end

/-- The finished table. -/
def Section.toToml (t : Section) : Toml :=
  .table (entriesToToml t)

/-- The table of some assignments, each to a key that dotted keys lead to. -/
def Section.ofAssignments? (assignments : List (List String × Toml)) : Option Section :=
  assignments.foldlM (fun t (path, v) =>
    match path.getLast? with
    | some key => t.assign? path.dropLast key v
    | none => none) []

end IncludeAtlas.Toml
