import IncludeAtlas.Text.Utf8
import Mathlib.Tactic.IntervalCases

/-!
# Text as bytes and back

A text that is encoded is read back, strictly and loosely.  Bytes that are no text may stand
around it: a byte of ASCII ends what was under way before it, so that a byte string can be read
piece by piece between its slashes.

## Main Results

* `Utf8.scan_encode`: an encoded text is read character by character, whatever follows it
* `Utf8.decode?_encode`, `Utf8.lossy_encode`: an encoded text is read back
* `Utf8.lossy_append_ascii`: a byte string is read piece by piece around a byte of ASCII
* `Utf8.encode_lt_encode`: the bytes of texts are in the order of the texts

## What is load-bearing

The byte that follows the first one of a character lies in a range that excludes overlong forms
and surrogates.  No text has any of these, and no byte of ASCII lies in any of the ranges.
-/

namespace IncludeAtlas.Utf8

variable {p : Pending} {k : Nat} {bs : Bytes}

/-! ## Encoded text -/

theorem toNat_toUInt8 (h : k < 0x100) : k.toUInt8.toNat = k :=
  UInt8.toNat_ofNat_of_lt h

section Following

variable {code further : Nat} {low high : UInt8}

/-- A byte in the range of what is under way goes on with it. -/
theorem scan_following (fromLow : low.toNat ≤ 0x80 + k) (toHigh : 0x80 + k ≤ high.toNat) :
    scan (some ⟨code, further, low, high⟩) ((0x80 + k).toUInt8 :: bs) =
      match further with
      | 0 => some (Char.ofNat (code * 0x40 + k)) :: scan none bs
      | n + 1 => scan (some ⟨code * 0x40 + k, n, 0x80, 0xBF⟩) bs := by
  have value : (0x80 + k).toUInt8.toNat = 0x80 + k :=
    toNat_toUInt8 (Nat.lt_of_le_of_lt toHigh high.toNat_lt)
  have range : low ≤ (0x80 + k).toUInt8 ∧ (0x80 + k).toUInt8 ≤ high := by
    rw [UInt8.le_iff_toNat_le, UInt8.le_iff_toNat_le, value]
    exact ⟨fromLow, toHigh⟩
  cases further <;>
    simp only [scan, if_pos range, value, Nat.add_sub_cancel_left]

/-- The last byte of a character. -/
theorem scan_last (fromLow : low.toNat ≤ 0x80 + k) (toHigh : 0x80 + k ≤ high.toNat) :
    scan (some ⟨code, 0, low, high⟩) ((0x80 + k).toUInt8 :: bs) =
      some (Char.ofNat (code * 0x40 + k)) :: scan none bs :=
  scan_following fromLow toHigh

/-- A byte within a character. -/
theorem scan_inner (fromLow : low.toNat ≤ 0x80 + k) (toHigh : 0x80 + k ≤ high.toNat) :
    scan (some ⟨code, further + 1, low, high⟩) ((0x80 + k).toUInt8 :: bs) =
      scan (some ⟨code * 0x40 + k, further, 0x80, 0xBF⟩) bs :=
  scan_following fromLow toHigh

end Following

theorem lead_one (h : k < 0x80) : lead k.toUInt8 = .whole (Char.ofNat k) := by
  have small : k.toUInt8 < 0x80 := by
    rw [UInt8.lt_iff_toNat_lt, toNat_toUInt8 (by omega)]
    exact h
  rw [lead, if_pos small, toNat_toUInt8 (by omega)]

/-- The first byte of two. -/
theorem lead_two (low : 2 ≤ k) (high : k < 0x20) :
    lead (0xC0 + k).toUInt8 = .pending ⟨k, 0, 0x80, 0xBF⟩ := by
  interval_cases k <;> rfl

/-- The first byte of three, which excludes overlong forms and surrogates. -/
theorem lead_three (high : k < 0x10) : lead (0xE0 + k).toUInt8 =
    .pending ⟨k, 1, if k = 0 then 0xA0 else 0x80, if k = 0xD then 0x9F else 0xBF⟩ := by
  interval_cases k <;> rfl

/-- The first byte of four, which excludes overlong forms and what is beyond the last plane. -/
theorem lead_four (high : k < 5) : lead (0xF0 + k).toUInt8 =
    .pending ⟨k, 2, if k = 0 then 0x90 else 0x80, if k = 4 then 0x8F else 0xBF⟩ := by
  interval_cases k <;> rfl

theorem scan_lead {b : UInt8} (h : lead b = .pending p) :
    scan none (b :: bs) = scan (some p) bs := by
  rw [scan, h]

/-- The number of a character is not that of a surrogate, and lies in one of the planes. -/
theorem toNat_valid (c : Char) : c.toNat < 0xD800 ∨ 0xDFFF < c.toNat ∧ c.toNat < 0x110000 :=
  c.valid

/-- **An encoded character is read back**, whatever follows it. -/
theorem scan_encodeChar (c : Char) (bs : Bytes) :
    scan none (encodeChar c ++ bs) = some c :: scan none bs := by
  have valid := toNat_valid c
  have read : ∀ {n : Nat}, n = c.toNat → some (Char.ofNat n) = some c := by
    rintro _ rfl
    rw [Char.ofNat_toNat]
  rw [encodeChar]
  split_ifs with one two three
  · rw [List.singleton_append, scan, lead_one one]
    exact congrArg (· :: scan none bs) (read rfl)
  · rw [List.cons_append, List.singleton_append, scan_lead (lead_two (by omega) (by omega)),
      scan_last (Nat.le_add_right _ _) (show _ ≤ 0xBF by omega)]
    exact congrArg (· :: scan none bs) (read (by omega))
  · have overlong : (if c.toNat / 0x1000 = 0 then (0xA0 : UInt8) else 0x80).toNat ≤
        0x80 + c.toNat / 0x40 % 0x40 := by
      split_ifs
      · show 0xA0 ≤ _
        omega
      · exact Nat.le_add_right _ _
    have surrogate : 0x80 + c.toNat / 0x40 % 0x40 ≤
        (if c.toNat / 0x1000 = 0xD then (0x9F : UInt8) else 0xBF).toNat := by
      split_ifs
      · show _ ≤ 0x9F
        omega
      · show _ ≤ 0xBF
        omega
    rw [List.cons_append, List.cons_append, List.singleton_append,
      scan_lead (lead_three (by omega)), scan_inner overlong surrogate,
      scan_last (Nat.le_add_right _ _) (show _ ≤ 0xBF by omega)]
    exact congrArg (· :: scan none bs) (read (by omega))
  · have overlong : (if c.toNat / 0x40000 = 0 then (0x90 : UInt8) else 0x80).toNat ≤
        0x80 + c.toNat / 0x1000 % 0x40 := by
      split_ifs
      · show 0x90 ≤ _
        omega
      · exact Nat.le_add_right _ _
    have beyond : 0x80 + c.toNat / 0x1000 % 0x40 ≤
        (if c.toNat / 0x40000 = 4 then (0x8F : UInt8) else 0xBF).toNat := by
      split_ifs
      · show _ ≤ 0x8F
        omega
      · show _ ≤ 0xBF
        omega
    rw [List.cons_append, List.cons_append, List.cons_append, List.singleton_append,
      scan_lead (lead_four (by omega)), scan_inner overlong beyond,
      scan_inner (Nat.le_add_right _ _) (show _ ≤ 0xBF by omega),
      scan_last (Nat.le_add_right _ _) (show _ ≤ 0xBF by omega)]
    exact congrArg (· :: scan none bs) (read (by omega))

/-- **An encoded text is read character by character**, whatever follows it. -/
theorem scan_encode (s : String) (bs : Bytes) :
    scan none (encode s ++ bs) = s.toList.map some ++ scan none bs := by
  rw [encode]
  induction s.toList with
  | nil => rfl
  | cons c cs ih => rw [List.flatMap_cons, List.append_assoc, scan_encodeChar, ih]; rfl

theorem scan_encode_self (s : String) : scan none (encode s) = s.toList.map some := by
  have read := scan_encode s []
  rwa [List.append_nil, scan, List.append_nil] at read

/-- **An encoded text is read back.** -/
theorem decode?_encode (s : String) : decode? (encode s) = some s := by
  have whole : ∀ cs : List Char, (cs.map some).mapM id = some cs := by
    intro cs
    induction cs with
    | nil => rfl
    | cons c cs ih =>
        rw [List.map_cons, List.mapM_cons, ih]
        rfl
  rw [decode?, scan_encode_self, whole, Option.map_some, String.ofList_toList]

/-- There is nothing in an encoded text to put a replacement character for. -/
theorem lossy_encode (s : String) : lossy (encode s) = s := by
  have kept : (fun c : Option Char => c.getD '\uFFFD') ∘ some = id := rfl
  rw [lossy, scan_encode_self, List.map_map, kept, List.map_id, String.ofList_toList]

theorem encode_append (s t : String) : encode (s ++ t) = encode s ++ encode t := by
  unfold encode
  rw [String.toList_append, List.flatMap_append]

/-- Beyond ASCII every byte of a character is beyond ASCII. -/
theorem notMem_encodeChar {b : UInt8} (ascii : b < 0x80) {c : Char} (other : c.toNat ≠ b.toNat) :
    b ∉ encodeChar c := by
  have valid := toNat_valid c
  have small : b.toNat < 0x80 := UInt8.lt_iff_toNat_lt.1 ascii
  have beyond : ∀ {k}, 0x80 ≤ k → k < 0x100 → b ≠ k.toUInt8 := by
    rintro k low high rfl
    rw [toNat_toUInt8 high] at small
    omega
  rw [encodeChar]
  split_ifs with one two three
  · rw [List.mem_singleton]
    rintro rfl
    exact other (toNat_toUInt8 (by omega)).symm
  · simp only [List.mem_cons, List.not_mem_nil, or_false, not_or]
    exact ⟨beyond (by omega) (by omega), beyond (by omega) (by omega)⟩
  · simp only [List.mem_cons, List.not_mem_nil, or_false, not_or]
    exact ⟨beyond (by omega) (by omega), beyond (by omega) (by omega),
      beyond (by omega) (by omega)⟩
  · simp only [List.mem_cons, List.not_mem_nil, or_false, not_or]
    exact ⟨beyond (by omega) (by omega), beyond (by omega) (by omega),
      beyond (by omega) (by omega), beyond (by omega) (by omega)⟩

/-! ## Piece by piece -/

/-- What is under way goes on with bytes beyond ASCII only. -/
def Beyond (under : Option Pending) : Prop :=
  ∀ p ∈ under, 0x80 ≤ p.low

theorem beyond_none : Beyond none :=
  fun _ mem => nomatch mem

theorem beyond_some : Beyond (some p) ↔ 0x80 ≤ p.low := by
  simp [Beyond]

theorem beyond_of_lead {b : UInt8} (h : lead b = .pending p) : Beyond (some p) := by
  rw [beyond_some]
  unfold lead at h
  split_ifs at h <;> simp only [Lead.pending.injEq] at h <;> subst h
  all_goals exact UInt8.le_iff_toNat_le.2 (by simp)

/-- A byte is read by itself or goes on with what is under way, whatever follows it.  If nothing
is read at once, something is under way. -/
theorem exists_scan_cons (under : Option Pending) (c : UInt8) :
    ∃ read next, Beyond next ∧ (next = none → read ≠ []) ∧
      ∀ bs, scan under (c :: bs) = read ++ scan next bs := by
  have first : ∃ read next, Beyond next ∧ (next = none → read ≠ []) ∧
      ∀ bs, scan none (c :: bs) = read ++ scan next bs := by
    cases announced : lead c with
    | whole d =>
        refine ⟨[some d], none, beyond_none, fun _ => List.cons_ne_nil _ _, fun bs => ?_⟩
        rw [scan, announced]
        rfl
    | pending q =>
        refine ⟨[], some q, beyond_of_lead announced, (fun none => nomatch none), fun bs => ?_⟩
        rw [scan, announced]
        rfl
    | invalid =>
        refine ⟨[none], none, beyond_none, fun _ => List.cons_ne_nil _ _, fun bs => ?_⟩
        rw [scan, announced]
        rfl
  cases under with
  | none => exact first
  | some p =>
      by_cases within : p.low ≤ c ∧ c ≤ p.high
      · obtain ⟨code, further, low, high⟩ := p
        cases further with
        | zero =>
            refine ⟨[some (Char.ofNat (code * 0x40 + (c.toNat - 0x80)))], none, beyond_none,
              fun _ => List.cons_ne_nil _ _, fun bs => ?_⟩
            simp only [scan, if_pos within]
            rfl
        | succ n =>
            refine ⟨[], some ⟨code * 0x40 + (c.toNat - 0x80), n, 0x80, 0xBF⟩,
              beyond_some.2 (UInt8.le_refl _), (fun none => nomatch none), fun bs => ?_⟩
            simp only [scan, if_pos within]
            rfl
      · -- what was under way is given up, and the byte is read as a first one
        obtain ⟨read, next, beyond, -, step⟩ := first
        refine ⟨none :: read, next, beyond, fun _ => List.cons_ne_nil _ _, fun bs => ?_⟩
        rw [List.cons_append, ← step]
        simp only [scan, if_neg within]

/-- A byte of ASCII is a character. -/
theorem scan_ascii {b : UInt8} (ascii : b < 0x80) (bs : Bytes) :
    scan none (b :: bs) = some (Char.ofNat b.toNat) :: scan none bs := by
  rw [scan, lead, if_pos ascii]

/-- **A byte of ASCII ends what was under way**, and nothing that follows it belongs to what
stands before it. -/
theorem scan_append_ascii {b : UInt8} (ascii : b < 0x80) {under : Option Pending}
    (beyond : Beyond under) (a bs : Bytes) :
    scan under (a ++ b :: bs) = scan under a ++ scan none (b :: bs) := by
  induction a generalizing under with
  | nil =>
      cases under with
      | none => rfl
      | some p =>
          have out : ¬ (p.low ≤ b ∧ b ≤ p.high) := fun h =>
            UInt8.not_lt.2 (UInt8.le_trans (beyond p rfl) h.1) ascii
          simp only [List.nil_append, scan, if_neg out]
          rfl
  | cons c a ih =>
      obtain ⟨read, next, further, -, step⟩ := exists_scan_cons under c
      rw [List.cons_append, step, step, ih further, List.append_assoc]

/-- **A byte string is read piece by piece** around a byte of ASCII. -/
theorem lossy_append_ascii {b : UInt8} (ascii : b < 0x80) (a bs : Bytes) :
    lossy (a ++ b :: bs) = lossy a ++ String.singleton (Char.ofNat b.toNat) ++ lossy bs := by
  apply String.toList_inj.1
  rw [lossy, scan_append_ascii ascii beyond_none, scan_ascii ascii]
  simp [lossy]

/-- Something is read of what is under way and of every byte string but the empty one. -/
theorem scan_eq_nil {under : Option Pending} (h : scan under bs = []) : under = none ∧ bs = [] := by
  induction bs generalizing under with
  | nil =>
      cases under with
      | none => exact ⟨rfl, rfl⟩
      | some p => cases h
  | cons b bs ih =>
      obtain ⟨read, next, -, more, step⟩ := exists_scan_cons under b
      rw [step, List.append_eq_nil_iff] at h
      exact absurd h.1 (more (ih h.2).1)

/-- The text of a byte string is empty only if the byte string is. -/
theorem lossy_eq_empty_iff : lossy bs = "" ↔ bs = [] := by
  constructor
  · intro h
    have nothing : (scan none bs).map (fun c => c.getD '\uFFFD') = [] := by
      rw [← String.toList_ofList (l := (scan none bs).map _), ← lossy, h]
      rfl
    exact (scan_eq_nil (List.map_eq_nil_iff.1 nothing)).2
  · rintro rfl
    rfl

/-! ## Order -/

/-- Byte strings are compared at the first byte that differs. -/
theorem cons_lt_cons {j k : Nat} {x y : Bytes} (le : j ≤ k) (byte : k < 0x100)
    (rest : j = k → x < y) : j.toUInt8 :: x < k.toUInt8 :: y := by
  rw [List.cons_lt_cons_iff]
  rcases Nat.lt_or_eq_of_le le with lt | rfl
  · refine .inl (UInt8.lt_iff_toNat_lt.2 ?_)
    rwa [toNat_toUInt8 byte, toNat_toUInt8 (Nat.lt_trans lt byte)]
  · exact .inr ⟨rfl, rest rfl⟩

theorem cons_lt_cons_of_lt {j k : Nat} {x y : Bytes} (lt : j < k) (byte : k < 0x100) :
    j.toUInt8 :: x < k.toUInt8 :: y :=
  cons_lt_cons (Nat.le_of_lt lt) byte fun eq => absurd eq (Nat.ne_of_lt lt)

/-- **The bytes of characters are in the order of the characters**, whatever follows them. -/
theorem encodeChar_append_lt {c d : Char} (lt : c.toNat < d.toNat) (x y : Bytes) :
    encodeChar c ++ x < encodeChar d ++ y := by
  have valid := toNat_valid d
  rw [encodeChar, encodeChar]
  split_ifs
  -- a character of more bytes is not before one of fewer
  any_goals omega
  all_goals simp only [List.cons_append, List.nil_append]
  · exact cons_lt_cons_of_lt lt (by omega)
  · exact cons_lt_cons_of_lt (by omega) (by omega)
  · exact cons_lt_cons_of_lt (by omega) (by omega)
  · exact cons_lt_cons_of_lt (by omega) (by omega)
  · refine cons_lt_cons (by omega) (by omega) fun first => ?_
    exact cons_lt_cons_of_lt (by omega) (by omega)
  · exact cons_lt_cons_of_lt (by omega) (by omega)
  · exact cons_lt_cons_of_lt (by omega) (by omega)
  · refine cons_lt_cons (by omega) (by omega) fun first => ?_
    refine cons_lt_cons (by omega) (by omega) fun second => ?_
    exact cons_lt_cons_of_lt (by omega) (by omega)
  · exact cons_lt_cons_of_lt (by omega) (by omega)
  · refine cons_lt_cons (by omega) (by omega) fun first => ?_
    refine cons_lt_cons (by omega) (by omega) fun second => ?_
    refine cons_lt_cons (by omega) (by omega) fun third => ?_
    exact cons_lt_cons_of_lt (by omega) (by omega)

theorem encodeChar_ne_nil (c : Char) : encodeChar c ≠ [] := by
  rw [encodeChar]
  split_ifs <;> exact List.cons_ne_nil _ _

/-- **The bytes of texts are in the order of the texts.** -/
theorem encode_lt_encode {s t : String} (lt : s < t) : encode s < encode t := by
  have ordered : List.Lex (· < ·) s.toList t.toList := lt
  unfold encode
  generalize s.toList = cs, t.toList = ds at ordered
  induction ordered with
  | @nil d ds =>
      obtain ⟨b, bs, spelled⟩ := List.exists_cons_of_ne_nil (encodeChar_ne_nil d)
      rw [List.flatMap_cons, spelled]
      exact List.nil_lt_cons _ _
  | rel lt =>
      rw [List.flatMap_cons, List.flatMap_cons]
      exact encodeChar_append_lt lt _ _
  | cons _ ih =>
      rw [List.flatMap_cons, List.flatMap_cons]
      exact List.append_left_lt ih

end IncludeAtlas.Utf8
