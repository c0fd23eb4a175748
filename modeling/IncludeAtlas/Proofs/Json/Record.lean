import IncludeAtlas.Document.Text
import IncludeAtlas.Proofs.Json.Number
import IncludeAtlas.Proofs.Traversal
import Mathlib.Data.List.Nodup

/-!
# Records in other words

A record may be given in many ways: its members in any order, with others among them, or as the
list of its values.  This module says which changes of an object leave the record as it is and
which leave no record at all.

## Main Definitions

* `Json.Names`, `Json.valuesOf`: the keys and the values of a name
* `Json.Reworded`: a record in other words
* `Json.Miscounted`: a record that lacks a field or has one once more
* `Json.FieldChanged`: a record with another value for a field

## Main Results

* `Json.record?_object_eq_some_iff`: the fields of an object are the only values of their names
* `Json.Reworded.record?_eq`: in other words a record has the same fields
* `Json.Miscounted.record?_eq_none`: no record lacks a field or has one twice
* `Json.FieldChanged.record?_eq`: a record with another value for a field

## Design notes

Keys are compared as texts.  An escaped letter in a key makes no other key of it.
-/

namespace IncludeAtlas

namespace Json

/-! ## Names and their values -/

/-- A key that stands for a name. -/
def Names (k : List Unit) (name : String) : Prop :=
  text? k = some name.toList

instance (k : List Unit) (name : String) : Decidable (Names k name) :=
  inferInstanceAs (Decidable (_ = _))

variable {names : List String} {name : String} {k : List Unit} {v v' w : Json}
  {ms ms' before after : List (List Unit × Json)} {vs : List Json}

theorem Names.unique {name' : String} (h : Names k name) (h' : Names k name') : name = name' :=
  String.toList_inj.1 (Option.some.inj (Eq.trans (Eq.symm h) h'))

/-- The values of a name among some members. -/
def valuesOf (name : String) (ms : List (List Unit × Json)) : List Json :=
  (ms.filter fun m => Names m.1 name).map Prod.snd

theorem mem_valuesOf : v ∈ valuesOf name ms ↔ ∃ m ∈ ms, Names m.1 name ∧ m.2 = v := by
  simp [valuesOf]

theorem valuesOf_append : valuesOf name (before ++ after) =
    valuesOf name before ++ valuesOf name after := by
  simp [valuesOf]

theorem valuesOf_cons_of_names (h : Names k name) :
    valuesOf name ((k, v) :: ms) = v :: valuesOf name ms := by
  simp [valuesOf, h]

theorem valuesOf_cons_of_not_names (h : ¬ Names k name) :
    valuesOf name ((k, v) :: ms) = valuesOf name ms := by
  simp [valuesOf, h]

theorem members?_eq_some_iff {keyed : List (List Char × Json)} :
    members? ms = some keyed ↔
      List.Forall₂ (fun m p => text? m.1 = some p.1 ∧ m.2 = p.2) ms keyed := by
  rw [members?, mapM_eq_some_iff]
  have one : ∀ (m : List Unit × Json) (p : List Char × Json),
      ((text? m.1).map fun k => (k, m.2)) = some p ↔ text? m.1 = some p.1 ∧ m.2 = p.2 := by
    intro m p
    rw [Option.map_eq_some_iff]
    constructor
    · rintro ⟨t, text, rfl⟩
      exact ⟨text, rfl⟩
    · rintro ⟨text, value⟩
      exact ⟨p.1, text, Prod.ext rfl value⟩
  simp only [one]

/-- The members with a text for their key are found by this text. -/
theorem valuesOf_eq {keyed : List (List Char × Json)} (h : members? ms = some keyed) :
    (keyed.filter fun m => m.1 = name.toList).map Prod.snd = valuesOf name ms := by
  have same := members?_eq_some_iff.1 h
  clear h
  induction same with
  | nil => rfl
  | @cons m p ms keyed first _ ih =>
      obtain ⟨k, v⟩ := m
      obtain ⟨text, rfl⟩ := first
      by_cases named : p.1 = name.toList
      · rw [List.filter_cons_of_pos (by simpa using named), List.map_cons, ih,
          valuesOf_cons_of_names (by rw [Names, text, named])]
      · rw [List.filter_cons_of_neg (by simpa using named), ih, valuesOf_cons_of_not_names]
        intro names
        exact named (Option.some.inj (text.symm.trans names))

theorem only?_eq_some_iff {α : Type} {xs : List α} {x : α} : only? xs = some x ↔ xs = [x] := by
  match xs with
  | [] | [_] | _ :: _ :: _ => simp [only?]

/-- **The fields of an object are the only values of their names.**  All keys have to be texts,
also those that name no field. -/
theorem record?_object_eq_some_iff :
    record? names (.object ms) = some vs ↔ (∀ m ∈ ms, ∃ name, Names m.1 name) ∧
      List.Forall₂ (fun name v => valuesOf name ms = [v]) names vs := by
  have fields : ∀ keyed, members? ms = some keyed →
      (names.mapM (fun name => only? ((keyed.filter fun m => m.1 = name.toList).map Prod.snd)) =
        some vs ↔ List.Forall₂ (fun name v => valuesOf name ms = [v]) names vs) := by
    intro keyed h
    simp only [mapM_eq_some_iff, only?_eq_some_iff, valuesOf_eq h]
  rw [record?, Option.bind_eq_bind, Option.bind_eq_some_iff]
  constructor
  · rintro ⟨keyed, read, found⟩
    refine ⟨fun m mem => ?_, (fields keyed read).1 found⟩
    obtain ⟨i, lt, rfl⟩ := List.getElem_of_mem mem
    have same := members?_eq_some_iff.1 read
    obtain ⟨text, -⟩ := (List.forall₂_iff_get.1 same).2 i lt (same.length_eq ▸ lt)
    exact ⟨String.ofList _, by rw [Names, String.toList_ofList]; exact text⟩
  · rintro ⟨named, found⟩
    obtain ⟨keyed, read⟩ : ∃ keyed, members? ms = some keyed := by
      clear found fields
      induction ms with
      | nil => exact ⟨[], rfl⟩
      | cons m ms ih =>
          obtain ⟨name, text⟩ := named m List.mem_cons_self
          obtain ⟨keyed, read⟩ := ih fun n mem => named n (List.mem_cons_of_mem m mem)
          exact ⟨(name.toList, m.2) :: keyed,
            members?_eq_some_iff.2 (.cons ⟨text, rfl⟩ (members?_eq_some_iff.1 read))⟩
    exact ⟨keyed, read, (fields keyed read).2 found⟩

theorem record?_array_eq_some_iff {elements : List Json} :
    record? names (.array elements) = some vs ↔ elements.length = names.length ∧ elements = vs := by
  rw [record?]
  split_ifs with len
  · simp [len]
  · simp [len]

/-! ## Changes -/

/-- A record in other words: with its members in another order, with one more member that names
no field, or as the list of its fields. -/
inductive Reworded (names : List String) : Json → Json → Prop
  | permuted {ms ms' : List (List Unit × Json)} (perm : ms.Perm ms') :
      Reworded names (.object ms) (.object ms')
  | extended {before after : List (List Unit × Json)} {k : List Unit} {name : String} {w : Json}
      (named : Names k name) (unknown : name ∉ names) :
      Reworded names (.object (before ++ after)) (.object (before ++ (k, w) :: after))
  | listed {ms : List (List Unit × Json)} {vs : List Json}
      (fields : List.Forall₂ (fun name v => ∃ m ∈ ms, Names m.1 name ∧ m.2 = v) names vs) :
      Reworded names (.object ms) (.array vs)

/-- A record that lacks a field or has one once more. -/
inductive Miscounted (names : List String) : Json → Json → Prop
  | removed {before after : List (List Unit × Json)} {k : List Unit} {name : String} {v : Json}
      (named : Names k name) (known : name ∈ names) :
      Miscounted names (.object (before ++ (k, v) :: after)) (.object (before ++ after))
  | repeated {before after : List (List Unit × Json)} {k : List Unit} {name : String} {w : Json}
      (named : Names k name) (known : name ∈ names) :
      Miscounted names (.object (before ++ after)) (.object (before ++ (k, w) :: after))
  | shortened {before after : List Json} {v : Json} :
      Miscounted names (.array (before ++ v :: after)) (.array (before ++ after))
  | lengthened {before after : List Json} {w : Json} :
      Miscounted names (.array (before ++ after)) (.array (before ++ w :: after))

/-- A record with another value for a field, be it given as an object or as a list. -/
inductive FieldChanged (names : List String) (name : String) (change : Json → Json → Prop) :
    Json → Json → Prop
  | member {before after : List (List Unit × Json)} {k : List Unit} {v v' : Json}
      (named : Names k name) (changed : change v v') :
      FieldChanged names name change (.object (before ++ (k, v) :: after))
        (.object (before ++ (k, v') :: after))
  | element {before after : List Json} {v v' : Json} (place : names[before.length]? = some name)
      (changed : change v v') :
      FieldChanged names name change (.array (before ++ v :: after))
        (.array (before ++ v' :: after))

theorem valuesOf_perm (perm : ms.Perm ms') : (valuesOf name ms).Perm (valuesOf name ms') :=
  (perm.filter _).map _

/-- **In other words a record has the same fields.** -/
theorem Reworded.record?_eq (h : Reworded names v v') (record : record? names v = some vs) :
    record? names v' = some vs := by
  cases h with
  | @permuted ms ms' perm =>
      obtain ⟨named, fields⟩ := record?_object_eq_some_iff.1 record
      refine record?_object_eq_some_iff.2 ⟨fun m mem => named m (perm.mem_iff.2 mem), ?_⟩
      refine fields.imp fun name v only => ?_
      exact List.perm_singleton.1 (only ▸ (valuesOf_perm perm).symm)
  | @extended before after k name w text unknown =>
      obtain ⟨named, fields⟩ := record?_object_eq_some_iff.1 record
      rw [List.forall_mem_append] at named
      refine record?_object_eq_some_iff.2 ⟨?_, ?_⟩
      · rw [List.forall_mem_append, List.forall_mem_cons]
        exact ⟨named.1, ⟨name, text⟩, named.2⟩
      · refine forall₂_imp_of_mem fields fun field mem v only => ?_
        have no : ¬ Names k field := fun same => unknown (text.unique same ▸ mem)
        rw [valuesOf_append, valuesOf_cons_of_not_names no, ← valuesOf_append, only]
  | @listed ms values fields' =>
      obtain ⟨-, fields⟩ := record?_object_eq_some_iff.1 record
      refine record?_array_eq_some_iff.2 ⟨fields'.length_eq.symm, ?_⟩
      clear record
      induction fields' generalizing vs with
      | nil => exact (List.forall₂_nil_left_iff.1 fields).symm
      | @cons name value names values first _ ih =>
          obtain ⟨v, vs, only, rest, rfl⟩ := List.forall₂_cons_left_iff.1 fields
          have mem : value ∈ valuesOf name ms := mem_valuesOf.2 first
          rw [only, List.mem_singleton] at mem
          rw [mem, ih rest]

/-- A field of an object has a single value. -/
theorem length_valuesOf (record : record? names (.object ms) = some vs) (known : name ∈ names) :
    (valuesOf name ms).length = 1 := by
  obtain ⟨n₁, n₂, rfl⟩ := List.append_of_mem known
  obtain ⟨-, v, -, -, -, only, -⟩ :=
    forall₂_append_cons_iff.1 (record?_object_eq_some_iff.1 record).2
  rw [only, List.length_singleton]

/-- **No record lacks a field or has one twice.** -/
theorem Miscounted.record?_eq_none (h : Miscounted names v v')
    (record : record? names v = some vs) : record? names v' = none := by
  rw [Option.eq_none_iff_forall_ne_some]
  intro vs' record'
  cases h with
  | removed text known =>
      have all := length_valuesOf record known
      have less := length_valuesOf record' known
      rw [valuesOf_append, valuesOf_cons_of_names text] at all
      rw [valuesOf_append] at less
      simp only [List.length_append, List.length_cons] at all less
      omega
  | repeated text known =>
      have all := length_valuesOf record known
      have more := length_valuesOf record' known
      rw [valuesOf_append] at all
      rw [valuesOf_append, valuesOf_cons_of_names text] at more
      simp only [List.length_append, List.length_cons] at all more
      omega
  | shortened =>
      have all := (record?_array_eq_some_iff.1 record).1
      have less := (record?_array_eq_some_iff.1 record').1
      simp only [List.length_append, List.length_cons] at all less
      omega
  | lengthened =>
      have all := (record?_array_eq_some_iff.1 record).1
      have more := (record?_array_eq_some_iff.1 record').1
      simp only [List.length_append, List.length_cons] at all more
      omega

theorem length_of_record? (record : record? names v = some vs) : vs.length = names.length := by
  cases v with
  | array elements =>
      obtain ⟨len, rfl⟩ := record?_array_eq_some_iff.1 record
      exact len
  | object ms => exact (record?_object_eq_some_iff.1 record).2.length_eq.symm
  | _ => cases record

/-- A member that has the only value of its name is the only member of the name. -/
theorem valuesOf_middle (text : Names k name)
    (only : valuesOf name (before ++ (k, v) :: after) = [w]) :
    v = w ∧ ∀ v', valuesOf name (before ++ (k, v') :: after) = [v'] := by
  rw [valuesOf_append, valuesOf_cons_of_names text] at only
  have front : valuesOf name before = [] := by
    have len := congrArg List.length only
    simp only [List.length_append, List.length_cons, List.length_nil] at len
    exact List.length_eq_zero_iff.1 (by omega)
  rw [front, List.nil_append, List.cons.injEq] at only
  refine ⟨only.1, fun v' => ?_⟩
  rw [valuesOf_append, valuesOf_cons_of_names text, front, only.2, List.nil_append]

/-- The values of the other names do not depend on the value of a member. -/
theorem valuesOf_middle_of_ne {name' : String} (text : Names k name) (ne : name' ≠ name) :
    valuesOf name' (before ++ (k, v') :: after) = valuesOf name' (before ++ (k, v) :: after) := by
  have no : ¬ Names k name' := fun same => ne (same.unique text)
  rw [valuesOf_append, valuesOf_cons_of_not_names no, valuesOf_append,
    valuesOf_cons_of_not_names no]

/-- **A record with another value for a field** has this value there and else the same. -/
theorem FieldChanged.record?_eq {change : Json → Json → Prop} {front back : List Json} {x : Json}
    (h : FieldChanged names name change v v') (distinct : names.Nodup)
    (place : names[front.length]? = some name)
    (record : record? names v = some (front ++ x :: back)) :
    ∃ x', change x x' ∧ record? names v' = some (front ++ x' :: back) := by
  cases h with
  | @member before after k v v' text changed =>
      obtain ⟨n₁, n₂, rfl, len⟩ := exists_append_of_getElem? place
      obtain ⟨named, fields⟩ := record?_object_eq_some_iff.1 record
      obtain ⟨front', x', back', eq, fieldsFront, only, fieldsBack⟩ :=
        forall₂_append_cons_iff.1 fields
      obtain ⟨rfl, rest⟩ := List.append_inj eq (len.symm.trans fieldsFront.length_eq)
      obtain ⟨rfl, rfl⟩ := List.cons.inj rest
      obtain ⟨rfl, single⟩ := valuesOf_middle text only
      have apart := List.nodup_middle.1 distinct
      rw [List.nodup_cons, List.mem_append, not_or] at apart
      refine ⟨v', changed, record?_object_eq_some_iff.2 ⟨?_, forall₂_append_cons_iff.2
        ⟨front, v', back, rfl, ?_, single v', ?_⟩⟩⟩
      · rw [List.forall_mem_append, List.forall_mem_cons] at named ⊢
        exact ⟨named.1, ⟨name, text⟩, named.2.2⟩
      · refine forall₂_imp_of_mem fieldsFront fun name' mem u only => ?_
        rw [valuesOf_middle_of_ne text (fun eq => apart.1.1 (eq ▸ mem)), only]
      · refine forall₂_imp_of_mem fieldsBack fun name' mem u only => ?_
        rw [valuesOf_middle_of_ne text (fun eq => apart.1.2 (eq ▸ mem)), only]
  | @element before after v v' place' changed =>
      obtain ⟨len, eq⟩ := record?_array_eq_some_iff.1 record
      have same : before.length = front.length := by
        obtain ⟨lt, -⟩ := List.getElem?_eq_some_iff.1 place'
        exact (List.getElem?_inj lt distinct).1 (place'.trans place.symm)
      obtain ⟨rfl, rest⟩ := List.append_inj eq same
      obtain ⟨rfl, rfl⟩ := List.cons.inj rest
      refine ⟨v', changed, record?_array_eq_some_iff.2 ⟨?_, rfl⟩⟩
      simp only [List.length_append, List.length_cons] at len ⊢
      exact len

end Json

end IncludeAtlas
