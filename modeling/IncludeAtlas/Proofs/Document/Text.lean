import IncludeAtlas.Document.Text
import IncludeAtlas.Proofs.Json.Number
import IncludeAtlas.Proofs.Json.Parser
import IncludeAtlas.Proofs.Traversal

/-!
# Documents read back

A document that is written is read as the document it was.  Nothing that reads a value sees
whether a control character in it is spelled by its number, so it is enough that a record is
found in the value that was made of it.

## Main Definitions

* `Json.ReadsBack`: the floating-point numbers whose text is read as the same number
* `GraphDocument.Fits`: the documents whose counts have 32 bits
* `GraphDocument.Steady`: the documents whose positions read back

## Main Results

* `Json.record?_ofFields`: the fields of an object are found under their names
* `GraphDocument.ofJson?_reread`: a value that is written and read stands for the same document
* `GraphDocument.ofJson?_toJson`: the value of a document stands for the document
* `GraphDocument.decoding_undoes_encoding`: documents are read back
-/

namespace IncludeAtlas

namespace Json

/-! ## What is reread -/

variable {v : Json}

theorem word?_reread (v : Json) : v.reread.word? = v.word? := by
  cases v <;> simp [reread, word?]

theorem float?_reread (v : Json) : v.reread.float? = v.float? := by
  cases v <;> simp [reread, float?]

theorem string?_reread (v : Json) : v.reread.string? = v.string? := by
  cases v with
  | string units => rw [reread, string?, text?_map_reread, string?]
  | _ => simp [reread, string?]

theorem elements?_reread (v : Json) :
    v.reread.elements? = v.elements?.map (List.map reread) := by
  cases v <;> simp [reread, elements?]

theorem members?_reread (ms : List (List Unit × Json)) :
    members? (ms.map fun m => (m.1.map Unit.reread, reread m.2)) =
      (members? ms).map (List.map fun m => (m.1, reread m.2)) := by
  rw [members?, members?, List.mapM_map, ← mapM_map_option]
  congr 1
  funext ⟨k, v⟩
  simp only [Function.comp_apply, text?_map_reread]
  cases text? k <;> rfl

theorem only?_map {α β : Type} (f : α → β) (xs : List α) :
    only? (xs.map f) = (only? xs).map f := by
  match xs with
  | [] | [_] | _ :: _ :: _ => rfl

/-- The fields of a record that is reread are the fields of the record, reread. -/
theorem record?_reread (names : List String) (v : Json) :
    v.reread.record? names = (v.record? names).map (List.map reread) := by
  cases v with
  | array elements =>
      rw [reread, record?, List.length_map, record?]
      split_ifs <;> rfl
  | object ms =>
      rw [reread, record?, members?_reread, record?]
      cases members? ms with
      | none => rfl
      | some ms =>
          simp only [Option.map_some, Option.bind_eq_bind, Option.bind_some]
          rw [← mapM_map_option]
          congr 1
          funext name
          -- members are chosen by the text of their keys, which is what it was
          rw [List.filter_map, List.map_map, ← only?_map, List.map_map]
          rfl
  | _ => simp [reread, record?]

/-! ## Values that are written -/

theorem text?_unitsOf (s : String) : text? (unitsOf s) = some s.toList := by
  rw [unitsOf]
  generalize s.toList = cs
  induction cs with
  | nil => rfl
  | cons c cs ih =>
      rw [List.map_cons, text?, ih]
      rfl

theorem string?_ofText (s : String) : (ofText s).string? = some s := by
  rw [ofText, string?, text?_unitsOf, Option.map_some, String.ofList_toList]

theorem word?_ofNat {k : Nat} (h : k < UInt32.size) : (ofNat k).word? = some k :=
  Number.natural?_ofNat (Nat.le_sub_one_of_lt h)

/-- A number of 32 bits has 32 bits. -/
theorem lt_of_word? {k : Nat} (h : v.word? = some k) : k < UInt32.size := by
  cases v with
  | number n => exact Nat.lt_of_le_sub_one (by decide) (Number.le_of_natural? h)
  | _ => cases h

theorem writable_ofNat (k : Nat) : (ofNat k).Writable := by
  rw [Writable, ofNat, lexemes, List.forall_mem_singleton]
  exact Number.wellFormed_ofNat k

theorem writable_unitsOf (s : String) : ∀ u ∈ unitsOf s, u.Writable := by
  rw [unitsOf, List.forall_mem_map]
  exact fun _ _ => trivial

theorem writable_ofText (s : String) : (ofText s).Writable := by
  rw [Writable, ofText, lexemes, List.forall_mem_singleton]
  exact writable_unitsOf s

/-- Every floating-point number can be written: one that is not finite is null. -/
theorem writable_ofFloat (x : Float) : (ofFloat x).Writable := by
  rw [Writable, ofFloat]
  split
  · rename_i found
    rw [lexemes, List.forall_mem_singleton]
    exact Number.wellFormed_ofFloat? found
  · rw [lexemes, List.forall_mem_singleton]
    trivial

theorem writable_ofFields {fields : List (String × Json)} (h : ∀ f ∈ fields, f.2.Writable) :
    (ofFields fields).Writable := by
  refine writable_object ?_
  rw [List.forall_mem_map]
  exact fun f mem => ⟨writable_unitsOf f.1, h f mem⟩

/-- Among fields with distinct names one is found under its name. -/
theorem filter_eq_singleton {fields : List (String × Json)}
    (distinct : (fields.map Prod.fst).Nodup) {f : String × Json} (mem : f ∈ fields) :
    fields.filter (fun g => g.1 = f.1) = [f] := by
  induction fields with
  | nil => cases mem
  | cons g fields ih =>
      rw [List.map_cons, List.nodup_cons] at distinct
      rcases List.mem_cons.1 mem with rfl | mem
      · have nowhere : fields.filter (fun g => g.1 = f.1) = [] := by
          rw [List.filter_eq_nil_iff]
          intro g mem same
          exact distinct.1 (List.mem_map.2 ⟨g, mem, of_decide_eq_true same⟩)
        rw [List.filter_cons_of_pos (by simp), nowhere]
      · have other : g.1 ≠ f.1 := fun same =>
          distinct.1 (List.mem_map.2 ⟨f, mem, same.symm⟩)
        rw [List.filter_cons_of_neg (by simpa using other), ih distinct.2 mem]

/-- **The fields of an object are found under their names**, if these are distinct. -/
theorem record?_ofFields {fields : List (String × Json)}
    (distinct : (fields.map Prod.fst).Nodup) :
    (ofFields fields).record? (fields.map Prod.fst) = some (fields.map Prod.snd) := by
  have shape : ofFields fields = .object (fields.map fun f => (unitsOf f.1, f.2)) := rfl
  have keys : members? (fields.map fun f => (unitsOf f.1, f.2)) =
      some (fields.map fun f => (f.1.toList, f.2)) := by
    rw [members?, List.mapM_map]
    refine mapM_eq_some_map fun f _ => ?_
    simp only [Function.comp_apply, text?_unitsOf, Option.map_some]
  rw [shape, record?, keys]
  simp only [Option.bind_eq_bind, Option.bind_some]
  rw [List.mapM_map]
  refine mapM_eq_some_map fun f mem => ?_
  have found := filter_eq_singleton distinct mem
  have named : (fun m : List Char × Json => decide (m.1 = f.1.toList)) ∘
      (fun g : String × Json => (g.1.toList, g.2)) = fun g => decide (g.1 = f.1) := by
    funext g
    simp [String.toList_inj]
  rw [Function.comp_apply, List.filter_map, named, found]
  rfl

/-- A floating-point number whose text is read as the same number. -/
def ReadsBack (x : Float) : Prop :=
  (parse? (ofFloat x).compact).bind float? = some x

/-- A number reads back as text exactly if it does so as a value. -/
theorem readsBack_iff {x : Float} : ReadsBack x ↔ (ofFloat x).float? = some x := by
  rw [ReadsBack, parse?_compact (writable_ofFloat x), Option.bind_some, float?_reread]

end Json

open Json (ReadsBack)

/-! ## Nodes and edges -/

namespace NodeRecord

/-- The counts of a node have 32 bits. -/
structure Fits (n : NodeRecord) : Prop where
  id : n.id < UInt32.size
  size : n.size < UInt32.size

/-- The position of a node reads back. -/
structure Steady (n : NodeRecord) : Prop where
  x : ReadsBack n.x
  y : ReadsBack n.y

theorem ofJson?_reread (v : Json) : ofJson? v.reread = ofJson? v := by
  rw [ofJson?, ofJson?, Json.record?_reread]
  cases v.record? fields with
  | none => rfl
  | some vs =>
      obtain _ | ⟨_, _ | ⟨_, _ | ⟨_, _ | ⟨_, _ | ⟨_, _ | ⟨_, _ | ⟨_, _ | _⟩⟩⟩⟩⟩⟩⟩ := vs
      all_goals simp [Json.word?_reread, Json.float?_reread, Json.string?_reread]

/-- The value of a node stands for the node. -/
theorem ofJson?_toJson {n : NodeRecord} (fits : n.Fits) (steady : n.Steady) :
    ofJson? n.toJson = some n := by
  have found : n.toJson.record? fields = some [.ofNat n.id, .ofText n.label, .ofText n.group,
      .ofNat n.size, .ofFloat n.x, .ofFloat n.y, .ofText n.color] :=
    Json.record?_ofFields (show fields.Nodup by decide)
  rw [ofJson?, found]
  simp [Json.word?_ofNat fits.id, Json.word?_ofNat fits.size, Json.string?_ofText,
    Json.readsBack_iff.1 steady.x, Json.readsBack_iff.1 steady.y]

theorem writable_toJson (n : NodeRecord) : n.toJson.Writable := by
  refine Json.writable_ofFields ?_
  simp [Json.writable_ofNat, Json.writable_ofText, Json.writable_ofFloat]

/-- A node that is read has counts of 32 bits. -/
theorem fits_of_ofJson? {v : Json} {n : NodeRecord} (h : ofJson? v = some n) : n.Fits := by
  obtain ⟨vs, -, h⟩ := Option.bind_eq_some_iff.1 h
  split at h
  · simp only [Option.bind_eq_bind, Option.bind_eq_some_iff, Option.pure_def,
      Option.some.injEq] at h
    obtain ⟨id, isId, _, _, _, _, size, isSize, _, _, _, _, _, _, rfl⟩ := h
    exact ⟨Json.lt_of_word? isId, Json.lt_of_word? isSize⟩
  · cases h

end NodeRecord

namespace EdgeRecord

/-- The counts of an edge have 32 bits. -/
structure Fits (e : EdgeRecord) : Prop where
  id : e.id < UInt32.size
  source : e.source < UInt32.size
  target : e.target < UInt32.size
  size : e.size < UInt32.size

theorem ofJson?_reread (v : Json) : ofJson? v.reread = ofJson? v := by
  rw [ofJson?, ofJson?, Json.record?_reread]
  cases v.record? fields with
  | none => rfl
  | some vs =>
      obtain _ | ⟨_, _ | ⟨_, _ | ⟨_, _ | ⟨_, _ | ⟨_, _ | _⟩⟩⟩⟩⟩ := vs
      all_goals simp [Json.word?_reread, Json.string?_reread]

/-- The value of an edge stands for the edge. -/
theorem ofJson?_toJson {e : EdgeRecord} (fits : e.Fits) : ofJson? e.toJson = some e := by
  have found : e.toJson.record? fields = some [.ofNat e.id, .ofNat e.source, .ofNat e.target,
      .ofNat e.size, .ofText e.kind] :=
    Json.record?_ofFields (show fields.Nodup by decide)
  rw [ofJson?, found]
  simp [Json.word?_ofNat fits.id, Json.word?_ofNat fits.source, Json.word?_ofNat fits.target,
    Json.word?_ofNat fits.size, Json.string?_ofText]

theorem writable_toJson (e : EdgeRecord) : e.toJson.Writable := by
  refine Json.writable_ofFields ?_
  simp [Json.writable_ofNat, Json.writable_ofText]

/-- An edge that is read has counts of 32 bits. -/
theorem fits_of_ofJson? {v : Json} {e : EdgeRecord} (h : ofJson? v = some e) : e.Fits := by
  obtain ⟨vs, -, h⟩ := Option.bind_eq_some_iff.1 h
  split at h
  · simp only [Option.bind_eq_bind, Option.bind_eq_some_iff, Option.pure_def,
      Option.some.injEq] at h
    obtain ⟨id, isId, source, isSource, target, isTarget, size, isSize, _, _, rfl⟩ := h
    exact ⟨Json.lt_of_word? isId, Json.lt_of_word? isSource, Json.lt_of_word? isTarget,
      Json.lt_of_word? isSize⟩
  · cases h

end EdgeRecord

/-! ## Documents -/

namespace GraphDocument

/-- The counts of a document have 32 bits. -/
structure Fits (d : GraphDocument) : Prop where
  nodes : ∀ n ∈ d.nodes, n.Fits
  edges : ∀ e ∈ d.edges, e.Fits

/-- The positions in a document read back. -/
def Steady (d : GraphDocument) : Prop :=
  ∀ n ∈ d.nodes, n.Steady

/-- Elements that are read alike reread make the same list. -/
theorem bind_elements?_reread {α β : Type} {f : Json → Option α}
    (h : ∀ v, f v.reread = f v) (v : Json) (g : List α → Option β) :
    (v.reread.elements?.bind fun vs => (vs.mapM f).bind g) =
      v.elements?.bind fun vs => (vs.mapM f).bind g := by
  rw [Json.elements?_reread]
  cases v.elements? with
  | none => rfl
  | some vs =>
      have same : f ∘ Json.reread = f := funext h
      rw [Option.map_some, Option.bind_some, Option.bind_some, List.mapM_map, same]

/-- **A value that is written and read stands for the same document.** -/
theorem ofJson?_reread (v : Json) : ofJson? v.reread = ofJson? v := by
  rw [ofJson?, ofJson?, Json.record?_reread]
  cases v.record? fields with
  | none => rfl
  | some vs =>
      obtain _ | ⟨nodes, _ | ⟨edges, _ | _⟩⟩ := vs
      case cons.cons.nil =>
        simp only [Option.map_some, Option.bind_eq_bind, Option.bind_some, List.map_cons,
          List.map_nil, bind_elements?_reread NodeRecord.ofJson?_reread,
          bind_elements?_reread EdgeRecord.ofJson?_reread]
      all_goals rfl

/-- **The value of a document stands for the document.** -/
theorem ofJson?_toJson {d : GraphDocument} (fits : d.Fits) (steady : d.Steady) :
    ofJson? d.toJson = some d := by
  have found : d.toJson.record? fields = some [.array (d.nodes.map NodeRecord.toJson),
      .array (d.edges.map EdgeRecord.toJson)] :=
    Json.record?_ofFields (show fields.Nodup by decide)
  have nodes : (d.nodes.map NodeRecord.toJson).mapM NodeRecord.ofJson? = some d.nodes := by
    rw [List.mapM_map, mapM_eq_some_map (g := id), List.map_id]
    exact fun n mem => NodeRecord.ofJson?_toJson (fits.nodes n mem) (steady n mem)
  have edges : (d.edges.map EdgeRecord.toJson).mapM EdgeRecord.ofJson? = some d.edges := by
    rw [List.mapM_map, mapM_eq_some_map (g := id), List.map_id]
    exact fun e mem => EdgeRecord.ofJson?_toJson (fits.edges e mem)
  rw [ofJson?, found]
  simp [Json.elements?, nodes, edges]

/-- Every document can be written. -/
theorem writable_toJson (d : GraphDocument) : d.toJson.Writable := by
  have nodes : (Json.array (d.nodes.map NodeRecord.toJson)).Writable :=
    Json.writable_array (List.forall_mem_map.2 fun n _ => n.writable_toJson)
  have edges : (Json.array (d.edges.map EdgeRecord.toJson)).Writable :=
    Json.writable_array (List.forall_mem_map.2 fun e _ => e.writable_toJson)
  exact Json.writable_ofFields (by simp [nodes, edges])

/-- A document that is read has counts of 32 bits. -/
theorem fits_of_read? {s : String} {d : GraphDocument} (h : read? s = some d) : d.Fits := by
  obtain ⟨v, -, h⟩ := Option.bind_eq_some_iff.1 h
  obtain ⟨vs, -, h⟩ := Option.bind_eq_some_iff.1 h
  split at h
  · simp only [Option.bind_eq_bind, Option.bind_eq_some_iff, Option.pure_def,
      Option.some.injEq] at h
    obtain ⟨_, _, nodes, areNodes, _, _, edges, areEdges, rfl⟩ := h
    refine ⟨fun n mem => ?_, fun e mem => ?_⟩
    · obtain ⟨v, isNode⟩ := exists_of_mem_mapM areNodes n mem
      exact NodeRecord.fits_of_ofJson? isNode
    · obtain ⟨v, isEdge⟩ := exists_of_mem_mapM areEdges e mem
      exact EdgeRecord.fits_of_ofJson? isEdge
  · cases h

/-- A written document is a JSON text, whatever the positions in it are. -/
theorem parse?_write (d : GraphDocument) :
    Json.parse? d.write.toList = some d.toJson.reread := by
  rw [write, String.toList_ofList]
  exact Json.parse?_spread d.writable_toJson 0

/-- What is written of a document is read as the document. -/
theorem read?_write {d : GraphDocument} (fits : d.Fits) (steady : d.Steady) :
    read? d.write = some d := by
  rw [read?, parse?_write, Option.bind_some, ofJson?_reread, ofJson?_toJson fits steady]

/-- **Decoding undoes encoding**, for every document and for what any text decodes to. -/
theorem decoding_undoes_encoding :
    (∀ d : GraphDocument, d.Fits → d.Steady → read? d.write = some d) ∧
      ∀ (s : String) (d : GraphDocument), read? s = some d →
        d.Fits ∧ (d.Steady → read? d.write = some d) :=
  ⟨fun _ fits steady => read?_write fits steady, fun _ _ h =>
    ⟨fits_of_read? h, fun steady => read?_write (fits_of_read? h) steady⟩⟩

end GraphDocument

namespace Sample

/-- A half is written with one digit behind the point, and that is read as a half. -/
theorem readsBack_half : ReadsBack 0.5 := by
  have written : Json.Number.ofFloat? 0.5 = some ⟨false, ['0'], some ['5'], none⟩ := by
    decide +kernel
  have parts : Json.Number.significand ⟨false, ['0'], some ['5'], none⟩ = (5, -1) := by
    decide
  have scaled : Json.Number.scale? (Nat.toUInt64 5).toFloat (-1) = some 0.5 := by
    rw [Json.Number.scale?]
    decide +kernel
  rw [Json.readsBack_iff, Json.ofFloat, written]
  simp only [Json.float?, Json.Number.float?, parts, scaled]
  rfl

/-- A document with a quote, a backslash, a control character, a line separator, a character
beyond the first plane and braces in its texts, and with the greatest count. -/
def document : GraphDocument :=
  ⟨[⟨0, "\"\\\x01\u2028𝄞", "\x7b,\x7d", 4294967295, 0.5, 0.5, "rgba(234, 82, 77, 0.7)"⟩],
    [⟨0, 0, 0, 10, "curvedArrow"⟩]⟩

/-- The document is read back, and so is what an array of two empty arrays decodes to. -/
theorem decoding_document : GraphDocument.read? document.write = some document ∧
    GraphDocument.read? "[[], []]" = some ⟨[], []⟩ ∧
    GraphDocument.read? (GraphDocument.write ⟨[], []⟩) = some ⟨[], []⟩ := by
  have fits : document.Fits := by
    constructor
    · rintro n mem
      cases List.mem_singleton.1 mem
      exact ⟨by decide, by decide⟩
    · rintro e mem
      cases List.mem_singleton.1 mem
      exact ⟨by decide, by decide, by decide, by decide⟩
  have steady : document.Steady := by
    rintro n mem
    cases List.mem_singleton.1 mem
    exact ⟨readsBack_half, readsBack_half⟩
  have other : GraphDocument.read? "[[], []]" = some ⟨[], []⟩ := by
    cbv
  exact ⟨GraphDocument.decoding_undoes_encoding.1 document fits steady, other,
    (GraphDocument.decoding_undoes_encoding.2 _ _ other).2 (List.forall_mem_nil _)⟩

end Sample

end IncludeAtlas
