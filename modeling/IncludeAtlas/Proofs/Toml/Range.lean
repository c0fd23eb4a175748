import IncludeAtlas.Toml.Document
import Mathlib.Data.List.Basic

/-!
# Integers of TOML are in range

A reader of settings may rely on it that all integers of a value have 64 bits, wherever in the
value they stand: in lists, in tables on one line, or in tables that headers and keys with points
build up.

## Main Definitions

* `Contains`: an integer stands somewhere in a value
* `Toml.InRange`, `Item.InRange`, `Section.InRange`: all integers in it are in range

## Main Results

* `inRange_of_value?`: the integers of a value that is read are in range
* `Section.inRange_of_within?`: tables under construction keep theirs in range
* `inRange_of_parse?`: the integers of a text are in range

## Design notes

Nothing is said about how a table is built up but that nothing else gets into it than what it
had and what it is given.  So the invariant goes through all changes of `Section.alter?` alike.
-/

namespace IncludeAtlas.Toml

/-- An integer stands somewhere in a value. -/
inductive Contains (n : Int) : Toml → Prop
  | integer : Contains n (.integer n)
  | element {vs : List Toml} {v : Toml} (mem : v ∈ vs) (h : Contains n v) : Contains n (.array vs)
  | entry {es : List (String × Toml)} {e : String × Toml} (mem : e ∈ es) (h : Contains n e.2) :
      Contains n (.table es)

/-- All integers in a value have 64 bits. -/
def InRange (v : Toml) : Prop :=
  ∀ n, Contains n v → integerMin ≤ n ∧ n ≤ integerMax

/-- An integer stands somewhere in what a key stands for. -/
inductive Item.Contains (n : Int) : Item → Prop
  | value {v : Toml} (h : Toml.Contains n v) : Item.Contains n (.value v)
  | table {origin : Origin} {es : List (String × Item)} {e : String × Item} (mem : e ∈ es)
      (h : Item.Contains n e.2) : Item.Contains n (.table origin es)
  | complete {ts : List (List (String × Item))} {last t : List (String × Item)} {e : String × Item}
      (table : t ∈ ts) (mem : e ∈ t) (h : Item.Contains n e.2) : Item.Contains n (.tables ts last)
  | last {ts : List (List (String × Item))} {last : List (String × Item)} {e : String × Item}
      (mem : e ∈ last) (h : Item.Contains n e.2) : Item.Contains n (.tables ts last)

/-- All integers in what a key stands for have 64 bits. -/
def Item.InRange (i : Item) : Prop :=
  ∀ n, i.Contains n → integerMin ≤ n ∧ n ≤ integerMax

/-- All integers in a table under construction have 64 bits. -/
def Section.InRange (t : Section) : Prop :=
  ∀ e ∈ t, e.2.InRange

variable {v : Toml} {vs : List Toml} {s rest : List Char} {n : Nat} {t t' last : Section} {i : Item}
  {key : String} {origin way : Origin} {complete : List Section} {path : List String}

theorem inRange_array_iff : InRange (.array vs) ↔ ∀ v ∈ vs, v.InRange := by
  constructor
  · exact fun h v mem n inside => h n (.element mem inside)
  · rintro h n (_ | ⟨mem, inside⟩)
    exact h _ mem n inside

theorem inRange_table_iff {es : List (String × Toml)} :
    InRange (.table es) ↔ ∀ e ∈ es, e.2.InRange := by
  constructor
  · exact fun h e mem n inside => h n (.entry mem inside)
  · rintro h n (_ | _ | ⟨mem, inside⟩)
    exact h _ mem n inside

theorem Item.inRange_value_iff : (Item.value v).InRange ↔ v.InRange := by
  constructor
  · exact fun h n inside => h n (.value inside)
  · intro h n inside
    cases inside with
    | value inside => exact h n inside

theorem Item.inRange_table_iff : (Item.table origin t).InRange ↔ t.InRange := by
  constructor
  · exact fun h e mem n inside => h n (.table mem inside)
  · intro h n inside
    cases inside with
    | table mem inside => exact h _ mem n inside

theorem Item.inRange_tables_iff :
    (Item.tables complete last).InRange ↔ (∀ t ∈ complete, t.InRange) ∧ last.InRange := by
  constructor
  · exact fun h => ⟨fun t table e mem n inside => h n (.complete table mem inside),
      fun e mem n inside => h n (.last mem inside)⟩
  · intro h n inside
    cases inside with
    | complete table mem inside => exact h.1 _ table _ mem n inside
    | last mem inside => exact h.2 _ mem n inside

/-! ## Tables under construction -/

namespace Section

/-- What a key stands for changes into something in range. -/
def Keeps (change : Option Item → Option Item) : Prop :=
  ∀ o j, (∀ i ∈ o, i.InRange) → change o = some j → j.InRange

theorem inRange_of_alter? {change : Option Item → Option Item} (keeps : Keeps change)
    (range : t.InRange) (h : t.alter? key change = some t') : t'.InRange := by
  induction t generalizing t' with
  | nil =>
      obtain ⟨j, changed, rfl⟩ := Option.map_eq_some_iff.1 h
      exact List.forall_mem_singleton.2 (keeps none j (fun _ => nofun) changed)
  | cons e t ih =>
      obtain ⟨k, i⟩ := e
      obtain ⟨first, others⟩ := List.forall_mem_cons.1 range
      rw [alter?] at h
      split at h
      · obtain ⟨j, changed, rfl⟩ := Option.map_eq_some_iff.1 h
        refine List.forall_mem_cons.2 ⟨keeps (some i) j ?_ changed, others⟩
        rintro _ ⟨⟩
        exact first
      · obtain ⟨t₁, changed, rfl⟩ := Option.map_eq_some_iff.1 h
        exact List.forall_mem_cons.2 ⟨first, ih others changed⟩

/-- **Tables under construction keep their integers in range**, if the change at the place
does. -/
theorem inRange_of_within? {change : Origin → Section → Option Section}
    (keeps : ∀ origin t t', t.InRange → change origin t = some t' → t'.InRange)
    (range : t.InRange) (h : within? way change origin path t = some t') : t'.InRange := by
  induction path generalizing origin t t' with
  | nil => exact keeps origin t t' range h
  | cons k ks ih =>
      rw [within?] at h
      refine inRange_of_alter? (fun o j inside changed => ?_) range h
      split at changed
      · obtain ⟨t₁, made, rfl⟩ := Option.map_eq_some_iff.1 changed
        exact Item.inRange_table_iff.2 (ih (List.forall_mem_nil _) made)
      · cases changed
      · split_ifs at changed
        obtain ⟨t₁, made, rfl⟩ := Option.map_eq_some_iff.1 changed
        exact Item.inRange_table_iff.2 (ih (Item.inRange_table_iff.1 (inside _ rfl)) made)
      · obtain ⟨t₁, made, rfl⟩ := Option.map_eq_some_iff.1 changed
        obtain ⟨complete, last⟩ := Item.inRange_tables_iff.1 (inside _ rfl)
        exact Item.inRange_tables_iff.2 ⟨complete, ih last made⟩

theorem inRange_of_assign? (value : v.InRange) (range : t.InRange)
    (h : t.assign? path key v = some t') : t'.InRange := by
  refine inRange_of_within? (fun origin t t' range changed => ?_) range h
  split_ifs at changed
  refine inRange_of_alter? (fun o j _ made => ?_) range changed
  split at made
  · cases made
    exact Item.inRange_value_iff.2 value
  · cases made

theorem inRange_of_open? (range : t.InRange) (h : t.open? path key = some t') : t'.InRange := by
  refine inRange_of_within? (fun origin t t' range changed => ?_) range h
  refine inRange_of_alter? (fun o j inside made => ?_) range changed
  split at made
  · cases made
    exact Item.inRange_table_iff.2 (List.forall_mem_nil _)
  · cases made
    exact Item.inRange_table_iff.2 (Item.inRange_table_iff.1 (inside _ rfl))
  · cases made

theorem inRange_of_append? (range : t.InRange) (h : t.append? path key = some t') : t'.InRange := by
  refine inRange_of_within? (fun origin t t' range changed => ?_) range h
  refine inRange_of_alter? (fun o j inside made => ?_) range changed
  have none : Section.InRange [] := List.forall_mem_nil _
  split at made
  · cases made
    exact Item.inRange_tables_iff.2 ⟨List.forall_mem_nil _, none⟩
  · cases made
    obtain ⟨complete, last⟩ := Item.inRange_tables_iff.1 (inside _ rfl)
    refine Item.inRange_tables_iff.2 ⟨?_, none⟩
    exact List.forall_mem_append.2 ⟨complete, List.forall_mem_singleton.2 last⟩
  · cases made

end Section

mutual

theorem Item.inRange_toToml : ∀ i : Item, i.InRange → i.toToml.InRange
  | .value v, range => Item.inRange_value_iff.1 range
  | .table _ es, range =>
      inRange_table_iff.2 (inRange_entriesToToml es (Item.inRange_table_iff.1 range))
  | .tables complete last, range => by
      obtain ⟨tables, table⟩ := Item.inRange_tables_iff.1 range
      rw [Item.toToml, inRange_array_iff, List.forall_mem_append]
      exact ⟨inRange_tablesToToml complete tables,
        List.forall_mem_singleton.2 (inRange_table_iff.2 (inRange_entriesToToml last table))⟩

theorem inRange_entriesToToml : ∀ es : List (String × Item), Section.InRange es →
    ∀ e ∈ entriesToToml es, e.2.InRange
  | [], _ => List.forall_mem_nil _
  | (k, i) :: rest, range => by
      obtain ⟨first, others⟩ := List.forall_mem_cons.1 range
      rw [entriesToToml, List.forall_mem_cons]
      exact ⟨Item.inRange_toToml i first, inRange_entriesToToml rest others⟩

theorem inRange_tablesToToml : ∀ ts : List (List (String × Item)),
    (∀ t ∈ ts, Section.InRange t) → ∀ v ∈ tablesToToml ts, v.InRange
  | [], _ => List.forall_mem_nil _
  | t :: rest, range => by
      obtain ⟨first, others⟩ := List.forall_mem_cons.1 range
      rw [tablesToToml, List.forall_mem_cons]
      exact ⟨inRange_table_iff.2 (inRange_entriesToToml t first), inRange_tablesToToml rest others⟩

end

theorem Section.inRange_toToml (range : t.InRange) : t.toToml.InRange :=
  inRange_table_iff.2 (inRange_entriesToToml t range)

/-! ## Values -/

/-- What is read by a reader of values is in range. -/
def Reader.Keeps (value : Reader Toml) : Prop :=
  ∀ s v rest, value s = some (v, rest) → v.InRange

theorem inRange_of_inRange? {m k : Int} (h : inRange? m = some k) :
    integerMin ≤ k ∧ k ≤ integerMax := by
  rw [inRange?] at h
  split_ifs at h with range
  cases h
  exact range

theorem inRange_integer_iff {m : Int} :
    InRange (.integer m) ↔ integerMin ≤ m ∧ m ≤ integerMax := by
  constructor
  · exact fun h => h m .integer
  · rintro h n ⟨⟩
    exact h

theorem inRange_of_based? {base : Nat} {p : Char → Bool} {m : Int}
    (h : based? base p s = some (m, rest)) : integerMin ≤ m ∧ m ≤ integerMax := by
  simp only [based?, Option.bind_eq_bind, Option.bind_eq_some_iff, Option.pure_def,
    Option.some.injEq, Prod.mk.injEq] at h
  obtain ⟨_, _, _, within, rfl, _⟩ := h
  exact inRange_of_inRange? within

theorem inRange_of_integer? {m : Int} (h : integer? s = some (m, rest)) :
    integerMin ≤ m ∧ m ≤ integerMax := by
  rw [integer?.eq_def] at h
  split at h
  · exact inRange_of_based? h
  · exact inRange_of_based? h
  · exact inRange_of_based? h
  · simp only [decimal?, Option.bind_eq_bind, Option.bind_eq_some_iff, Option.pure_def,
      Option.some.injEq, Prod.mk.injEq] at h
    obtain ⟨_, _, _, within, rfl, _⟩ := h
    exact inRange_of_inRange? within

theorem inRange_of_number? (h : number? s = some (v, rest)) : v.InRange := by
  rw [number?] at h
  split at h
  · cases h
    exact fun _ => nofun
  · obtain ⟨⟨m, _⟩, read, eq⟩ := Option.map_eq_some_iff.1 h
    cases eq
    exact inRange_integer_iff.2 (inRange_of_integer? read)

theorem inRange_of_moment? (h : moment? s = some (v, rest)) : v.InRange := by
  rw [moment?] at h
  obtain ⟨spelling, rfl⟩ : ∃ spelling, v = .moment spelling := by
    split at h
    · obtain ⟨_, _, eq⟩ := Option.bind_eq_some_iff.1 h
      cases eq
      exact ⟨_, rfl⟩
    · obtain ⟨_, _, eq⟩ := Option.bind_eq_some_iff.1 h
      cases eq
      exact ⟨_, rfl⟩
  exact fun _ => nofun

theorem inRange_of_scalarValue? (h : scalarValue? s = some (v, rest)) : v.InRange := by
  rw [scalarValue?.eq_def] at h
  split at h
  · cases h
    exact fun _ => nofun
  · cases h
    exact fun _ => nofun
  · split at h
    · cases h
      exact fun _ => nofun
    · rcases Option.or_eq_some_iff.1 h with read | ⟨-, read⟩
      · exact inRange_of_moment? read
      · exact inRange_of_number? read

section Reader

variable {value : Reader Toml} (keeps : value.Keeps)

include keeps

theorem inRange_of_elements? (h : elements? value n s = some (vs, rest)) : ∀ v ∈ vs, v.InRange := by
  induction n generalizing s vs rest with
  | zero => cases h
  | succ n ih =>
      rw [elements?] at h
      split at h
      · cases h
        exact List.forall_mem_nil _
      · obtain ⟨⟨v, s₁⟩, first, h⟩ := Option.bind_eq_some_iff.1 h
        have here := keeps _ _ _ first
        dsimp only at h
        split at h
        · obtain ⟨⟨vs', s₂⟩, others, eq⟩ := Option.bind_eq_some_iff.1 h
          cases eq
          exact List.forall_mem_cons.2 ⟨here, ih others⟩
        · cases h
          exact List.forall_mem_singleton.2 here
        · cases h

theorem inRange_of_assignment? {a : List String × Toml}
    (h : assignment? value s = some (a, rest)) : a.2.InRange := by
  simp only [assignment?, Option.bind_eq_bind, Option.bind_eq_some_iff, Option.pure_def,
    Option.some.injEq, Prod.mk.injEq] at h
  obtain ⟨_, _, _, _, ⟨v, _⟩, read, rfl, _⟩ := h
  exact keeps _ _ _ read

theorem inRange_of_moreAssignments? {as : List (List String × Toml)}
    (h : moreAssignments? value n s = some (as, rest)) : ∀ a ∈ as, a.2.InRange := by
  induction n generalizing s as rest with
  | zero => cases h
  | succ n ih =>
      obtain ⟨⟨a, s₁⟩, first, h⟩ := Option.bind_eq_some_iff.1 h
      have here := inRange_of_assignment? keeps first
      dsimp only at h
      split at h
      · obtain ⟨⟨as', s₂⟩, others, eq⟩ := Option.bind_eq_some_iff.1 h
        cases eq
        exact List.forall_mem_cons.2 ⟨here, ih others⟩
      · cases h
        exact List.forall_mem_singleton.2 here
      · cases h

theorem inRange_of_assignments? {as : List (List String × Toml)}
    (h : assignments? value s = some (as, rest)) : ∀ a ∈ as, a.2.InRange := by
  rw [assignments?] at h
  split at h
  · cases h
    exact List.forall_mem_nil _
  · exact inRange_of_moreAssignments? keeps h

end Reader

theorem Section.inRange_of_ofAssignments? {as : List (List String × Toml)}
    (range : ∀ a ∈ as, a.2.InRange) (h : Section.ofAssignments? as = some t) : t.InRange := by
  rw [Section.ofAssignments?] at h
  have start : Section.InRange [] := List.forall_mem_nil _
  generalize ([] : Section) = t₀ at h start
  induction as generalizing t₀ with
  | nil =>
      cases h
      exact start
  | cons a as ih =>
      obtain ⟨first, others⟩ := List.forall_mem_cons.1 range
      rw [List.foldlM_cons, Option.bind_eq_bind, Option.bind_eq_some_iff] at h
      obtain ⟨t₁, assigned, h⟩ := h
      refine ih others t₁ h ?_
      dsimp only at assigned
      split at assigned
      · exact inRange_of_assign? first start assigned
      · cases assigned

/-- **The integers of a value that is read are in range.** -/
theorem inRange_of_value? (n : Nat) : Reader.Keeps (value? n) := by
  induction n with
  | zero => exact fun s v rest h => inRange_of_scalarValue? h
  | succ n ih =>
      intro s v rest h
      rw [value?.eq_def] at h
      split at h
      · rename_i eq
        cases eq
        obtain ⟨⟨vs, s₁⟩, read, eq⟩ := Option.map_eq_some_iff.1 h
        cases eq
        exact inRange_array_iff.2 (inRange_of_elements? ih read)
      · rename_i eq
        cases eq
        obtain ⟨⟨as, s₁⟩, read, h⟩ := Option.bind_eq_some_iff.1 h
        obtain ⟨t, built, eq⟩ := Option.bind_eq_some_iff.1 h
        cases eq
        exact Section.inRange_toToml
          (Section.inRange_of_ofAssignments? (inRange_of_assignments? ih read) built)
      · exact inRange_of_scalarValue? h

/-! ## Texts -/

/-- What a line assigns is in range. -/
def Line.Keeps : Line → Prop
  | .assignment _ v => v.InRange
  | _ => True

theorem keeps_of_line? {l : Line} (h : line? s = some (l, rest)) : l.Keeps := by
  rw [line?.eq_def] at h
  split at h
  · simp only [Option.bind_eq_bind, Option.bind_eq_some_iff, Option.pure_def, Option.some.injEq,
      Prod.mk.injEq] at h
    obtain ⟨_, _, _, _, _, _, _, _, rfl, _⟩ := h
    trivial
  · simp only [Option.bind_eq_bind, Option.bind_eq_some_iff, Option.pure_def, Option.some.injEq,
      Prod.mk.injEq] at h
    obtain ⟨_, _, _, _, _, _, rfl, _⟩ := h
    trivial
  · simp only [Option.bind_eq_bind, Option.bind_eq_some_iff, Option.pure_def, Option.some.injEq,
      Prod.mk.injEq] at h
    obtain ⟨_, read, _, _, rfl, _⟩ := h
    exact inRange_of_assignment? (inRange_of_value? depthBound) read

theorem keeps_of_linesWithin? {ls : List Line} (h : linesWithin? n s = some ls) :
    ∀ l ∈ ls, l.Keeps := by
  induction n generalizing s ls with
  | zero =>
      rw [linesWithin?] at h
      split_ifs at h
      cases h
      exact List.forall_mem_nil _
  | succ n ih =>
      rw [linesWithin?] at h
      split at h
      · cases h
        exact List.forall_mem_nil _
      · obtain ⟨⟨l, s₁⟩, first, h⟩ := Option.bind_eq_some_iff.1 h
        obtain ⟨ls', others, eq⟩ := Option.bind_eq_some_iff.1 h
        cases eq
        exact List.forall_mem_cons.2 ⟨keeps_of_line? first, ih others⟩

theorem Section.inRange_of_addLine? {l : Line} {place place' : List String} (keeps : l.Keeps)
    (range : t.InRange) (h : addLine? (t, place) l = some (t', place')) : t'.InRange := by
  cases l with
  | assignment path v =>
      simp only [addLine?, Option.bind_eq_bind, Option.bind_eq_some_iff, Option.pure_def,
        Option.some.injEq, Prod.mk.injEq] at h
      obtain ⟨key, _, t₁, made, rfl, _⟩ := h
      exact inRange_of_within? (fun _ _ _ range => inRange_of_assign? keeps range) range made
  | header path =>
      simp only [addLine?, Option.bind_eq_bind, Option.bind_eq_some_iff, Option.pure_def,
        Option.some.injEq, Prod.mk.injEq] at h
      obtain ⟨key, _, t₁, made, rfl, _⟩ := h
      exact inRange_of_open? range made
  | arrayHeader path =>
      simp only [addLine?, Option.bind_eq_bind, Option.bind_eq_some_iff, Option.pure_def,
        Option.some.injEq, Prod.mk.injEq] at h
      obtain ⟨key, _, t₁, made, rfl, _⟩ := h
      exact inRange_of_append? range made

theorem Section.inRange_of_ofLines? {ls : List Line} (keeps : ∀ l ∈ ls, l.Keeps)
    (h : Section.ofLines? ls = some t) : t.InRange := by
  obtain ⟨⟨t', place'⟩, built, rfl⟩ := Option.map_eq_some_iff.1 h
  have start : Section.InRange [] := List.forall_mem_nil _
  clear h
  generalize ([] : Section) = t₀ at built start
  generalize ([] : List String) = place at built
  induction ls generalizing t₀ place with
  | nil =>
      cases built
      exact start
  | cons l ls ih =>
      obtain ⟨first, others⟩ := List.forall_mem_cons.1 keeps
      rw [List.foldlM_cons, Option.bind_eq_bind, Option.bind_eq_some_iff] at built
      obtain ⟨⟨t₁, place₁⟩, added, built⟩ := built
      exact ih others t₁ (inRange_of_addLine? first start added) place₁ built

/-- **The integers of a text are in range.** -/
theorem inRange_of_parse? (h : parse? s = some v) : v.InRange := by
  obtain ⟨ls, read, h⟩ := Option.bind_eq_some_iff.1 h
  obtain ⟨t, built, eq⟩ := Option.bind_eq_some_iff.1 h
  cases eq
  exact Section.inRange_toToml (Section.inRange_of_ofLines? (keeps_of_linesWithin? read) built)

end IncludeAtlas.Toml
