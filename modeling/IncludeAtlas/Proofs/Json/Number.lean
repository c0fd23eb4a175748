import IncludeAtlas.Proofs.Json.Token
import Mathlib.Data.List.DropRight

/-!
# Written numbers

The numbers that are written are spelled as the grammar of JSON has it: natural numbers have no
zero in front, and neither have the shortest digits of a floating-point number, however they
are laid out around the point.

## Main Definitions

* `Decimal.Digits.Leads`: digits without a zero in front, or the digit zero alone

## Main Results

* `Decimal.leads_shortest`: the shortest digits of a number have no zero in front
* `Number.wellFormed_ofNat`, `Number.wellFormed_ofFloat?`: written numbers are well-formed
* `Number.natural?_ofNat`: a natural number is read back
-/

namespace IncludeAtlas

open Json (IsDigits)

/-! ## Natural numbers -/

theorem Digit.isDecimal_eq (c : Char) : Digit.isDecimal c = c.isDigit := by
  simp [Digit.isDecimal, Char.isDigit, Char.le_def]

theorem isDigits_toDigits (n : Nat) : IsDigits (Nat.toDigits 10 n) :=
  ⟨Nat.toDigits_ne_nil, fun c mem => by
    rw [Digit.isDecimal_eq]
    exact Nat.isDigit_of_mem_toDigits (by decide) (by decide) mem⟩

/-- A positive number has no zero in front. -/
theorem head?_toDigits_ne {n : Nat} (pos : 0 < n) : (Nat.toDigits 10 n).head? ≠ some '0' := by
  induction n using Nat.strongRecOn with
  | ind n ih =>
      by_cases small : n < 10
      · rw [Nat.toDigits_of_lt_base small, List.head?_cons, Ne, Option.some.injEq,
          Nat.digitChar_eq_zero]
        exact Nat.ne_of_gt pos
      · have lead := ih (n / 10) (by omega) (by omega)
        obtain ⟨c, ds, eq⟩ := List.exists_cons_of_ne_nil (Nat.toDigits_ne_nil (n := n / 10) (b := 10))
        rw [Nat.toDigits_of_base_le (by decide) (Nat.not_lt.1 small), eq, List.cons_append,
          List.head?_cons]
        rwa [eq, List.head?_cons] at lead

/-! ## Shortest digits -/

namespace Decimal

/-- Digits without a zero in front, or the digit zero alone. -/
structure Digits.Leads (d : Digits) : Prop where
  digits : IsDigits d.digits
  lead : d.digits.head? = some '0' → d = ⟨['0'], 0⟩

theorem leads_zero : Digits.Leads ⟨['0'], 0⟩ :=
  ⟨⟨List.cons_ne_nil _ _, List.forall_mem_singleton.2 rfl⟩, fun _ => rfl⟩

theorem dropZeros_eq (ds : List Char) : dropZeros ds = ds.rdropWhile (· == '0') :=
  rfl

/-- Without the zeros at its end a row of digits still leads if it did. -/
theorem leads_dropZeros {ds : List Char} (digits : IsDigits ds) (lead : ds.head? ≠ some '0')
    (exponent : Int) : Digits.Leads ⟨dropZeros ds, exponent⟩ := by
  obtain ⟨c, cs, rfl⟩ := List.exists_cons_of_ne_nil digits.1
  have nonempty : dropZeros (c :: cs) ≠ [] := by
    rw [dropZeros_eq, Ne, List.rdropWhile_eq_nil_iff]
    -- were all digits zeros, the first one would be
    intro zeros
    exact lead (congrArg some (by simpa using zeros c List.mem_cons_self))
  have front : dropZeros (c :: cs) <+: c :: cs := List.rdropWhile_prefix _ _
  refine ⟨⟨nonempty, fun d mem => digits.2 d (front.subset mem)⟩, fun zero => ?_⟩
  obtain ⟨d, ds, eq⟩ := List.exists_cons_of_ne_nil nonempty
  rw [eq] at front zero
  rw [List.cons_prefix_cons.1 front |>.1] at zero
  exact absurd zero lead

/-- What is found on the grid reads back as the number. -/
theorem holds_of_pick? {i : Interval} {tie : Tie} {n : Nat} (h : i.pick? tie = some n) :
    i.holds n = true := by
  simp only [Interval.pick?] at h
  split at h
  · cases h
  · rename_i held _
    cases h
    exact held
  · rename_i _ held
    cases h
    exact held
  · rename_i below above
    split_ifs at h
    · cases h
      exact below
    · cases h
      exact above
    · cases tie with
      | up =>
          cases h
          exact above
      | even =>
          -- both neighbours hold, and one of them is even
          cases h
          rcases Nat.mod_two_eq_zero_or_one (i.value / i.den) with even | odd
          · rwa [even]
          · rwa [odd]

theorem pos_of_pick? {i : Interval} {tie : Tie} {n : Nat} (low : 0 < i.low)
    (h : i.pick? tie = some n) : 0 < n := by
  refine Nat.pos_of_ne_zero ?_
  rintro rfl
  have held := holds_of_pick? h
  simp only [Interval.holds, Nat.zero_mul] at held
  split_ifs at held <;>
    (simp only [Bool.and_eq_true, decide_eq_true_eq] at held; omega)

theorem low_onGrid_pos {i : Interval} (low : 0 < i.low) (k : Int) : 0 < (i.onGrid k).low := by
  rw [Interval.onGrid]
  split_ifs
  · exact low
  · exact Nat.mul_pos low (Nat.pow_pos (by decide))

theorem low_of_pos {m : Nat} (pos : 0 < m) (q : Int) : 0 < (Interval.of m q).low := by
  have scale : ∀ n, 0 < 1 <<< n := fun n => by
    rw [Nat.one_shiftLeft]
    exact Nat.two_pow_pos n
  rw [Interval.of]
  refine Nat.mul_pos ?_ ?_
  · split
    · omega
    · omega
  · split_ifs
    · exact scale _
    · exact Nat.one_pos

theorem leads_search {i : Interval} (low : 0 < i.low) (tie : Tie) (lead : Int) (fuel count : Nat) :
    (search i tie lead fuel count).Leads := by
  induction fuel generalizing count with
  | zero => exact leads_zero
  | succ fuel ih =>
      rw [search]
      split
      · rename_i n found
        have pos := pos_of_pick? (low_onGrid_pos low _) found
        exact leads_dropZeros (isDigits_toDigits n) (head?_toDigits_ne pos) _
      · exact ih (count + 1)

/-- **The shortest digits of a number have no zero in front.** -/
theorem leads_shortest (tie : Tie) (m : Nat) (q : Int) : (shortest tie m q).Leads := by
  rw [shortest]
  split_ifs with zero
  · exact leads_zero
  · exact leads_search (low_of_pos (Nat.pos_of_ne_zero zero) q) tie _ _ _

end Decimal

/-! ## Spelled numbers -/

namespace Json.Number

theorem wellFormed_ofNat (k : Nat) : (ofNat k).WellFormed where
  whole := isDigits_toDigits k
  lead := by
    intro zero
    rcases Nat.eq_zero_or_pos k with rfl | pos
    · rfl
    · exact absurd zero (head?_toDigits_ne pos)
  fraction := fun _ mem => nomatch mem
  exponent := fun _ mem => nomatch mem

/-- The value of a row of digits behind others. -/
theorem foldlM_digit? {ds : List Char} (h : ∀ c ∈ ds, Digit.isDecimal c = true) (value : Nat) :
    ds.foldlM (fun value c => (Natural.digit? c).map (value * 10 + ·)) value =
      some (Nat.ofDigitChars 10 ds value) := by
  induction ds generalizing value with
  | nil => rfl
  | cons c ds ih =>
      have digit : Natural.digit? c = some (c.toNat - '0'.toNat) :=
        if_pos (by simpa [Digit.isDecimal] using h c List.mem_cons_self)
      rw [List.foldlM_cons, digit, Nat.ofDigitChars_cons, Nat.mul_comm 10]
      exact ih (fun d mem => h d (List.mem_cons_of_mem c mem)) _

/-- A natural number is read back. -/
theorem natural?_ofNat {bound k : Nat} (le : k ≤ bound) :
    (ofNat k).natural? bound = some k := by
  have value : Natural.ofDigits? (Nat.toDigits 10 k) = some k := by
    rw [Natural.ofDigits?, foldlM_digit? (isDigits_toDigits k).2,
      Nat.ofDigitChars_toDigits (by decide) (by decide)]
  rw [natural?]
  simp only [ofNat, isInteger, Natural.digits, value, if_pos le]
  rfl

/-- A number that is read within a bound is within it. -/
theorem le_of_natural? {bound k : Nat} {n : Number} (h : n.natural? bound = some k) :
    k ≤ bound := by
  rw [natural?] at h
  split_ifs at h
  split at h
  · split_ifs at h with le
    cases h
    exact le
  · cases h

/-- The digits in front of the point: those of the number filled up with zeros, or a zero. -/
theorem isDigits_positional {d : Decimal.Digits} (h : d.Leads) :
    IsDigits (Decimal.positional d).1 ∧
      ((Decimal.positional d).1.head? = some '0' → (Decimal.positional d).1 = ['0']) := by
  obtain ⟨c, cs, digits⟩ := List.exists_cons_of_ne_nil h.digits.1
  rw [Decimal.positional]
  split_ifs
  · exact ⟨Decimal.leads_zero.digits, fun _ => rfl⟩
  · refine ⟨⟨by simp [digits], ?_⟩, ?_⟩
    · intro c mem
      rcases List.mem_append.1 mem with mem | mem
      · exact h.digits.2 c (List.mem_of_mem_take mem)
      · rw [List.eq_of_mem_replicate mem]
        rfl
    · intro zero
      have lead : d = ⟨['0'], 0⟩ := h.lead (by simpa [digits] using zero)
      rw [lead]
      rfl

/-- The digits behind the point. -/
theorem forall_mem_positional {d : Decimal.Digits} (h : d.Leads) :
    ∀ c ∈ (Decimal.positional d).2, Digit.isDecimal c = true := by
  intro c mem
  rw [Decimal.positional] at mem
  split_ifs at mem
  · rcases List.mem_append.1 mem with mem | mem
    · rw [List.eq_of_mem_replicate mem]
      rfl
    · exact h.digits.2 c mem
  · exact h.digits.2 c (List.mem_of_mem_drop mem)

theorem wellFormed_ofDigits (negative : Bool) {d : Decimal.Digits} (h : d.Leads) :
    (ofDigits negative d).WellFormed := by
  rw [ofDigits]
  split_ifs
  · obtain ⟨whole, lead⟩ := isDigits_positional h
    refine ⟨whole, lead, ?_, fun _ mem => nomatch mem⟩
    rintro _ ⟨⟩
    split_ifs with empty
    · exact Decimal.leads_zero.digits
    · exact ⟨by simpa using empty, forall_mem_positional h⟩
  · obtain ⟨c, cs, digits⟩ := List.exists_cons_of_ne_nil h.digits.1
    have all := h.digits.2
    rw [digits] at all ⊢
    refine ⟨⟨List.cons_ne_nil _ _, fun d mem => all d (List.mem_of_mem_take mem)⟩, ?_, ?_, ?_⟩
    · intro zero
      exact congrArg (fun o => o.toList) zero
    · intro ds mem
      simp only at mem
      split_ifs at mem with empty
      · cases mem
      · cases mem
        exact ⟨by simpa using empty, fun d mem => all d (List.mem_of_mem_drop mem)⟩
    · rintro _ ⟨⟩
      exact isDigits_toDigits _

/-- **A floating-point number is written as the grammar has it.** -/
theorem wellFormed_ofFloat? {x : Float} {n : Number} (h : ofFloat? x = some n) :
    n.WellFormed := by
  rw [ofFloat?] at h
  split at h
  · cases h
    exact wellFormed_ofDigits _ (Decimal.leads_shortest _ _ _)
  · cases h

end Json.Number

end IncludeAtlas
