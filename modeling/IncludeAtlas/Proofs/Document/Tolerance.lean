import IncludeAtlas.Proofs.Json.Grammar
import IncludeAtlas.Proofs.Json.Record
import Mathlib.Logic.Relation

/-!
# What reading a document passes over, and what it does not

A document is read from a text in which its records may be spelled in other words: in another
order, with members of other names among theirs, as lists of their values, with other blanks.
But a single record that lacks a field, has one twice or has a number that does not fit spoils
the document as a whole, however large it is.

## Main Definitions

* `Json.Number.Unfit`: a number that is no count
* `Json.Spoiled`: a record with a fault
* `Json.ReadsRecord`: what a reader of records goes by
* `GraphDocument.RecordChanged`: a change of one record of a document

## Main Results

* `GraphDocument.ofJson?_eq_some_iff`: what a value is that stands for a document
* `GraphDocument.RecordChanged.ofJson?_eq`: in other words a document is the same
* `GraphDocument.RecordChanged.ofJson?_eq_none`: one fault spoils a document
* `GraphDocument.tolerates`: both for texts

## Design notes

A change of a text is said by its tokens.  Two texts with the same tokens differ in blanks only,
so what is said of the tokens holds with any blanks between them.
-/

namespace IncludeAtlas

namespace Json

/-! ## Counts -/

/-- The fields that are counts, in whatever record. -/
def counts : List String := ["id", "size", "source", "target"]

/-- A number that is no count: it has a sign, a fraction or an exponent, or more than 32 bits. -/
def Number.Unfit (n : Number) : Prop :=
  n.negative = true ∨ n.fraction.isSome = true ∨ n.exponent.isSome = true ∨
    UInt32.size - 1 < Nat.ofDigitChars 10 n.whole 0

theorem value_eq_of_foldlM {ds : List Char} {value k : Nat}
    (h : ds.foldlM (fun value c => (Natural.digit? c).map (value * 10 + ·)) value = some k) :
    Nat.ofDigitChars 10 ds value = k := by
  induction ds generalizing value with
  | nil => exact Option.some.inj h
  | cons c ds ih =>
      rw [List.foldlM_cons, Option.bind_eq_bind, Option.bind_eq_some_iff] at h
      obtain ⟨next, first, rest⟩ := h
      obtain ⟨d, digit, rfl⟩ := Option.map_eq_some_iff.1 first
      rw [Natural.digit?] at digit
      split_ifs at digit
      cases digit
      rw [Nat.ofDigitChars_cons, Nat.mul_comm 10]
      exact ih rest

theorem Number.Unfit.word?_eq_none {n : Number} (h : n.Unfit) : (Json.number n).word? = none := by
  rw [Option.eq_none_iff_forall_ne_some]
  intro k read
  rw [word?, Number.natural?] at read
  split_ifs at read with plain
  rw [Bool.and_eq_true, Number.isInteger, Bool.and_eq_true, Bool.not_eq_true',
    Option.isNone_iff_eq_none, Option.isNone_iff_eq_none] at plain
  split at read
  · rename_i value digits
    split_ifs at read with le
    rcases h with sign | fraction | exponent | large
    · rw [plain.2] at sign
      cases sign
    · rw [plain.1.1] at fraction
      cases fraction
    · rw [plain.1.2] at exponent
      cases exponent
    · rw [value_eq_of_foldlM digits] at large
      exact absurd le (Nat.not_le.2 large)
  · cases read

/-- A record with a fault: it lacks a field or has one once more, or a count of it is none. -/
inductive Spoiled (names : List String) : Json → Json → Prop
  | miscounted {v v' : Json} (h : Miscounted names v v') : Spoiled names v v'
  | unfit {v v' : Json} {name : String} (known : name ∈ names) (count : name ∈ counts)
      (h : FieldChanged names name (fun _ w => ∃ n, w = .number n ∧ n.Unfit) v v') :
      Spoiled names v v'

/-- A list with one element changed. -/
inductive ElementChanged (change : Json → Json → Prop) : Json → Json → Prop
  | element {before after : List Json} {v v' : Json} (changed : change v v') :
      ElementChanged change (.array (before ++ v :: after)) (.array (before ++ v' :: after))

section Element

variable {α : Type} {f : Json → Option α} {change : Json → Json → Prop} {vs : List Json} {w : Json}
  {xs : List α}

/-- A change that keeps what an element is read as keeps what the list is read as. -/
theorem ElementChanged.exists_forall₂ (h : ElementChanged change (.array vs) w)
    (keeps : ∀ {v v' x}, change v v' → f v = some x → f v' = some x)
    (all : List.Forall₂ (fun v x => f v = some x) vs xs) :
    ∃ vs', w = .array vs' ∧ List.Forall₂ (fun v x => f v = some x) vs' xs := by
  cases h with
  | element changed =>
      obtain ⟨front, x, back, rfl, before, here, after⟩ := forall₂_append_cons_iff.1 all
      exact ⟨_, rfl, forall₂_append_cons_iff.2
        ⟨front, x, back, rfl, before, keeps changed here, after⟩⟩

/-- A change that spoils an element spoils the list. -/
theorem ElementChanged.not_forall₂ {vs' : List Json} {xs' : List α}
    (h : ElementChanged change (.array vs) (.array vs'))
    (spoils : ∀ {v v' x}, change v v' → f v = some x → f v' = none)
    (all : List.Forall₂ (fun v x => f v = some x) vs xs) :
    ¬ List.Forall₂ (fun v x => f v = some x) vs' xs' := by
  cases h with
  | element changed =>
      obtain ⟨-, x, -, -, -, here, -⟩ := forall₂_append_cons_iff.1 all
      intro all'
      obtain ⟨-, x', -, -, -, here', -⟩ := forall₂_append_cons_iff.1 all'
      rw [spoils changed here] at here'
      cases here'

end Element

/-! ## Readers of records -/

/-- A reader of records: it goes by their fields alone, and the counts among them have to be
counts. -/
structure ReadsRecord {α : Type} (names : List String) (f : Json → Option α) : Prop where
  distinct : names.Nodup
  congr : ∀ {v v'}, record? names v = record? names v' → f v = f v'
  counted : ∀ {v x}, f v = some x → ∃ vs, record? names v = some vs ∧
    ∀ p ∈ names.zip vs, p.1 ∈ counts → ∃ k, p.2.word? = some k

namespace ReadsRecord

variable {α : Type} {names : List String} {f : Json → Option α} {v v' : Json} {x : α}

theorem reworded (reads : ReadsRecord names f) (h : Reworded names v v') (read : f v = some x) :
    f v' = some x := by
  obtain ⟨vs, record, -⟩ := reads.counted read
  rw [← reads.congr (record.trans (h.record?_eq record).symm), read]

/-- With an unfit number for a count there is a field among the counts that is none. -/
theorem exists_unfit {name : String} {vs : List Json} (reads : ReadsRecord names f)
    (known : name ∈ names)
    (h : FieldChanged names name (fun _ w => ∃ n, w = .number n ∧ n.Unfit) v v')
    (record : record? names v = some vs) :
    ∃ vs' w, record? names v' = some vs' ∧ (name, w) ∈ names.zip vs' ∧ w.word? = none := by
  obtain ⟨i, lt, here⟩ := List.getElem_of_mem known
  have place : names[i]? = some name := List.getElem?_eq_some_iff.2 ⟨lt, here⟩
  have inside : i < vs.length := length_of_record? record ▸ lt
  -- the field changes at its place among the values
  have front : (vs.take i).length = i := List.length_take_of_le (Nat.le_of_lt inside)
  rw [← List.take_append_drop i vs, List.drop_eq_getElem_cons inside] at record
  obtain ⟨w, ⟨n, rfl, unfit⟩, record'⟩ :=
    h.record?_eq reads.distinct (front.symm ▸ place) record
  refine ⟨_, .number n, record', List.mem_iff_getElem?.2 ⟨i, ?_⟩, unfit.word?_eq_none⟩
  refine List.getElem?_zip_eq_some.2 ⟨place, ?_⟩
  rw [List.getElem?_append_right (Nat.le_of_eq front), front, Nat.sub_self]
  rfl

theorem spoiled (reads : ReadsRecord names f) (h : Spoiled names v v') (read : f v = some x) :
    f v' = none := by
  obtain ⟨vs, record, -⟩ := reads.counted read
  rw [Option.eq_none_iff_forall_ne_some]
  intro x' read'
  obtain ⟨vs', record', counted⟩ := reads.counted read'
  cases h with
  | miscounted h =>
      rw [h.record?_eq_none record] at record'
      cases record'
  | unfit known count h =>
      obtain ⟨vs₁, w, record₁, mem, none⟩ := reads.exists_unfit known h record
      cases record'.symm.trans record₁
      obtain ⟨k, some⟩ := counted _ mem count
      rw [none] at some
      cases some

end ReadsRecord

end Json

open Json (FieldChanged ElementChanged ReadsRecord Reworded Spoiled)

theorem NodeRecord.readsRecord : ReadsRecord fields ofJson? where
  distinct := by decide
  congr h := by rw [ofJson?, ofJson?, h]
  counted {v n} h := by
    obtain ⟨vs, record, read⟩ := Option.bind_eq_some_iff.1 h
    refine ⟨vs, record, ?_⟩
    split at read
    · simp only [Option.bind_eq_bind, Option.bind_eq_some_iff] at read
      obtain ⟨id, isId, _, _, _, _, size, isSize, _⟩ := read
      simp [fields, Json.counts, isId, isSize]
    · cases read

theorem EdgeRecord.readsRecord : ReadsRecord fields ofJson? where
  distinct := by decide
  congr h := by rw [ofJson?, ofJson?, h]
  counted {v e} h := by
    obtain ⟨vs, record, read⟩ := Option.bind_eq_some_iff.1 h
    refine ⟨vs, record, ?_⟩
    split at read
    · simp only [Option.bind_eq_bind, Option.bind_eq_some_iff] at read
      obtain ⟨id, isId, source, isSource, target, isTarget, size, isSize, _⟩ := read
      simp [fields, Json.counts, isId, isSource, isTarget, isSize]
    · cases read

/-! ## Documents -/

namespace GraphDocument

variable {v v' : Json} {d : GraphDocument}

/-- Neither field of a document is a count. -/
theorem readsRecord : ReadsRecord fields ofJson? where
  distinct := by decide
  congr h := by rw [ofJson?, ofJson?, h]
  counted {v d} h := by
    obtain ⟨vs, record, -⟩ := Option.bind_eq_some_iff.1 h
    have none : ∀ name ∈ fields, name ∉ Json.counts := by decide
    exact ⟨vs, record, fun p mem count => absurd count (none _ (List.of_mem_zip mem).1)⟩

/-- **A value stands for a document** if its fields are lists of what stands for the records. -/
theorem ofJson?_eq_some_iff : ofJson? v = some d ↔ ∃ ns es,
    v.record? fields = some [.array ns, .array es] ∧
    List.Forall₂ (fun v n => NodeRecord.ofJson? v = some n) ns d.nodes ∧
    List.Forall₂ (fun v e => EdgeRecord.ofJson? v = some e) es d.edges := by
  rw [ofJson?, Option.bind_eq_bind, Option.bind_eq_some_iff]
  constructor
  · rintro ⟨vs, record, h⟩
    split at h
    · rename_i nodes edges
      simp only [Option.bind_eq_bind, Option.bind_eq_some_iff, Option.pure_def,
        Option.some.injEq] at h
      obtain ⟨ns, areNodes, nodes', readNodes, es, areEdges, edges', readEdges, rfl⟩ := h
      cases nodes <;> cases areNodes
      cases edges <;> cases areEdges
      exact ⟨_, _, record, mapM_eq_some_iff.1 readNodes, mapM_eq_some_iff.1 readEdges⟩
    · cases h
  · rintro ⟨ns, es, record, readNodes, readEdges⟩
    refine ⟨_, record, ?_⟩
    simp [Json.elements?, mapM_eq_some_iff.2 readNodes, mapM_eq_some_iff.2 readEdges]

/-- A change of one record of a document: of the document itself, of a node or of an edge. -/
inductive RecordChanged (change : List String → Json → Json → Prop) : Json → Json → Prop
  | whole {v v' : Json} (h : change fields v v') : RecordChanged change v v'
  | node {v v' : Json}
      (h : FieldChanged fields "nodes" (ElementChanged (change NodeRecord.fields)) v v') :
      RecordChanged change v v'
  | edge {v v' : Json}
      (h : FieldChanged fields "edges" (ElementChanged (change EdgeRecord.fields)) v v') :
      RecordChanged change v v'

section Field

variable {change : Json → Json → Prop} {nodes edges : Json}

theorem record?_of_nodes_changed (h : FieldChanged fields "nodes" change v v')
    (record : v.record? fields = some [nodes, edges]) :
    ∃ nodes', change nodes nodes' ∧ v'.record? fields = some [nodes', edges] :=
  h.record?_eq (by decide) (show fields[([] : List Json).length]? = _ from rfl) record

theorem record?_of_edges_changed (h : FieldChanged fields "edges" change v v')
    (record : v.record? fields = some [nodes, edges]) :
    ∃ edges', change edges edges' ∧ v'.record? fields = some [nodes, edges'] :=
  h.record?_eq (by decide) (show fields[[nodes].length]? = _ from rfl) record

end Field

/-- **In other words a document is the same.** -/
theorem RecordChanged.ofJson?_eq (h : RecordChanged Reworded v v') (read : ofJson? v = some d) :
    ofJson? v' = some d := by
  obtain ⟨ns, es, record, nodes, edges⟩ := ofJson?_eq_some_iff.1 read
  cases h with
  | whole h => exact readsRecord.reworded h read
  | node h =>
      obtain ⟨w, changed, record'⟩ := record?_of_nodes_changed h record
      obtain ⟨ns', rfl, nodes'⟩ := changed.exists_forall₂ NodeRecord.readsRecord.reworded nodes
      exact ofJson?_eq_some_iff.2 ⟨ns', es, record', nodes', edges⟩
  | edge h =>
      obtain ⟨w, changed, record'⟩ := record?_of_edges_changed h record
      obtain ⟨es', rfl, edges'⟩ := changed.exists_forall₂ EdgeRecord.readsRecord.reworded edges
      exact ofJson?_eq_some_iff.2 ⟨ns, es', record', nodes, edges'⟩

/-- **One fault spoils a document**, in whatever record it is. -/
theorem RecordChanged.ofJson?_eq_none (h : RecordChanged Spoiled v v')
    (read : ofJson? v = some d) : ofJson? v' = none := by
  obtain ⟨ns, es, record, nodes, edges⟩ := ofJson?_eq_some_iff.1 read
  rw [Option.eq_none_iff_forall_ne_some]
  intro d' read'
  obtain ⟨ns₁, es₁, record₁, nodes₁, edges₁⟩ := ofJson?_eq_some_iff.1 read'
  cases h with
  | whole h =>
      rw [readsRecord.spoiled h read] at read'
      cases read'
  | node h =>
      obtain ⟨w, changed, record'⟩ := record?_of_nodes_changed h record
      cases record'.symm.trans record₁
      exact changed.not_forall₂ NodeRecord.readsRecord.spoiled nodes nodes₁
  | edge h =>
      obtain ⟨w, changed, record'⟩ := record?_of_edges_changed h record
      cases record'.symm.trans record₁
      exact changed.not_forall₂ EdgeRecord.readsRecord.spoiled edges edges₁

/-- A document that is reworded again and again is the same. -/
theorem ofJson?_of_reworded (h : Relation.ReflTransGen (RecordChanged Reworded) v v')
    (read : ofJson? v = some d) : ofJson? v' = some d := by
  induction h with
  | refl => exact read
  | tail _ step ih => exact step.ofJson?_eq ih

/-! ## Texts -/

theorem read?_eq_of_tokens? {s : String} (h : Json.tokens? s.toList = some v.lexemes) :
    read? s = ofJson? v := by
  rw [read?, Json.parse?_eq_some_iff.2 h, Option.bind_some]

/-- **Reading passes over everything but the fields of the records, and over no fault in them.**
A text that is read spells a value.  Every text that spells this value in other words, in any
number of records and with any blanks, is read as the same document, and no text that spells it
with one record spoiled is read at all. -/
theorem tolerates {s : String} (read : read? s = some d) :
    ∃ v, Json.tokens? s.toList = some v.lexemes ∧
      (∀ s' : String, Json.Respaced s.toList s'.toList → read? s' = some d) ∧
      (∀ v' (s' : String), Relation.ReflTransGen (RecordChanged Reworded) v v' →
        Json.tokens? s'.toList = some v'.lexemes → read? s' = some d) ∧
      ∀ v' (s' : String), RecordChanged Spoiled v v' →
        Json.tokens? s'.toList = some v'.lexemes → read? s' = none := by
  obtain ⟨v, parsed, stands⟩ := Option.bind_eq_some_iff.1 read
  refine ⟨v, Json.parse?_eq_some_iff.1 parsed, fun s' respaced => ?_, fun v' s' reworded cut => ?_,
    fun v' s' spoiled cut => ?_⟩
  · rwa [read?, ← respaced.parse?_eq]
  · rw [read?_eq_of_tokens? cut, ofJson?_of_reworded reworded stands]
  · rw [read?_eq_of_tokens? cut, spoiled.ofJson?_eq_none stands]

end GraphDocument

namespace Sample

open GraphDocument (RecordChanged)

/-- A document with one edge and no nodes. -/
def lone : GraphDocument :=
  ⟨[], [⟨7, 0, 1, 10, "t"⟩]⟩

/-- The edge with its members in their order. -/
def loneEdge : Json :=
  .ofFields [("id", .ofNat 7), ("source", .ofNat 0), ("target", .ofNat 1), ("size", .ofNat 10),
    ("type", .ofText "t")]

/-- The edge with a negative source. -/
def loneEdgeSpoiled : Json :=
  .ofFields [("id", .ofNat 7), ("source", .number ⟨true, ['1'], none, none⟩), ("target", .ofNat 1),
    ("size", .ofNat 10), ("type", .ofText "t")]

/-- The edge as the list of its fields. -/
def loneEdgeListed : Json :=
  .array [.ofNat 7, .ofNat 0, .ofNat 1, .ofNat 10, .ofText "t"]

/-- The edge is listed and stands before the nodes, with another member between, and is read.  With
a negative source it is not. -/
theorem tolerates_lone :
    GraphDocument.read? ("\x7b\"edges\": [[7, 0, 1, 10, \"t\"]],\n" ++
        "\"x\": [\x7b\x7d], \"nodes\": []\x7d") = some lone ∧
      GraphDocument.read? ("\x7b\"nodes\":[],\"edges\":[" ++
        "\x7b\"id\":7,\"source\":-1,\"target\":1,\"size\":10,\"type\":\"t\"\x7d]\x7d") = none := by
  have parsed : Json.parse? ("\x7b\"nodes\":[],\"edges\":[" ++
      "\x7b\"id\":7,\"source\":0,\"target\":1,\"size\":10,\"type\":\"t\"\x7d]\x7d").toList =
        some (.ofFields [("nodes", .array []), ("edges", .array [loneEdge])]) := by
    cbv
  have read : GraphDocument.read? ("\x7b\"nodes\":[],\"edges\":[" ++
      "\x7b\"id\":7,\"source\":0,\"target\":1,\"size\":10,\"type\":\"t\"\x7d]\x7d") =
        some lone := by
    rw [GraphDocument.read?, parsed]
    rfl
  obtain ⟨v, cut, -, reworded, spoiled⟩ := GraphDocument.tolerates read
  have value : v = .ofFields [("nodes", .array []), ("edges", .array [loneEdge])] :=
    Option.some.inj ((Json.parse?_eq_some_iff.2 cut).symm.trans parsed)
  subst value
  constructor
  · have listed : Reworded EdgeRecord.fields loneEdge loneEdgeListed :=
      .listed (by simp [EdgeRecord.fields, Json.Names, Json.unitsOf, Json.text?])
    have permuted : Reworded GraphDocument.fields
        (.ofFields [("nodes", .array []), ("edges", .array [loneEdgeListed])])
        (.ofFields [("edges", .array [loneEdgeListed]), ("nodes", .array [])]) :=
      .permuted (.swap _ _ _)
    have extended : Reworded GraphDocument.fields
        (.ofFields [("edges", .array [loneEdgeListed]), ("nodes", .array [])])
        (.ofFields [("edges", .array [loneEdgeListed]), ("x", .array [.object []]),
          ("nodes", .array [])]) :=
      @Reworded.extended _ [_] [_] _ "x" _ (by decide) (by decide)
    refine reworded _ _ (.tail (.tail (.single (.edge ?_)) (.whole permuted)) (.whole extended))
      (by cbv)
    exact @FieldChanged.member _ _ _ [_] [] _ _ _ (by decide)
      (@ElementChanged.element _ [] [] _ _ listed)
  · have negative : Spoiled EdgeRecord.fields loneEdge loneEdgeSpoiled :=
      @Spoiled.unfit _ _ _ "source" (by decide) (by decide)
        (@FieldChanged.member _ _ _ [_] [_, _, _] _ _ _ (by decide) ⟨_, rfl, .inl rfl⟩)
    refine spoiled (.ofFields [("nodes", .array []), ("edges", .array [loneEdgeSpoiled])]) _
      (.edge ?_) (by cbv)
    exact @FieldChanged.member _ _ _ [_] [] _ _ _ (by decide)
      (@ElementChanged.element _ [] [] _ _ negative)

end Sample

end IncludeAtlas
