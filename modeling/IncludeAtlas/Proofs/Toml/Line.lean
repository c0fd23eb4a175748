import IncludeAtlas.Proofs.Toml.Sheet
import IncludeAtlas.Proofs.Toml.Value
import Mathlib.Data.List.Forall2

/-!
# Written files

A file is written line by line: a header between brackets, or a key, an equals sign and a value.
What is read of it are these lines, one after another, and a line that cannot be read spoils the
file as a whole.

## Main Definitions

* `IsBare`: a key that needs no quotes
* `SpellsLine`: some characters are read as a line
* `header`, `assignment`: a line as it is written
* `Writes`, `WritesLine`: a value or a line and what is written for it
* `Sheet.Written`: a plain file and what is written for it

## Main Results

* `spellsLine_header`, `spellsLine_assignment`: what is written is read back
* `linesWithin?_joinLines`: lines are read one after another
* `Sheet.Written.parse?_eq_some`: a written file says what its lines say
* `Sheet.Written.parse?_eq_none`: an integer out of range spoils a file
-/

namespace IncludeAtlas.Toml

variable {k s t rest : List Char} {c : Char} {key : String} {v : Toml}

/-! ## Keys -/

/-- A key that needs no quotes. -/
structure IsBare (key : String) : Prop where
  nonempty : key.toList ≠ []
  plain : ∀ c ∈ key.toList, isKeyChar c = true

instance (key : String) : Decidable (IsBare key) :=
  decidable_of_iff (key.toList ≠ [] ∧ key.toList.all isKeyChar = true)
    ⟨fun h => ⟨h.1, List.all_eq_true.1 h.2⟩, fun h => ⟨h.nonempty, List.all_eq_true.2 h.plain⟩⟩

/-- A character of a key is none of the marks around keys. -/
theorem ne_of_isKeyChar (h : isKeyChar c = true) : isBlank c = false ∧
    ∀ d ∈ ['\n', '\r', '#', '[', ']', '"', '\'', '=', '.', '\uFEFF'], c ≠ d := by
  have none : ['\n', '\r', '#', '[', ']', '"', '\'', '=', '.', '\uFEFF', ' ', '\t'].any isKeyChar =
      false := by
    decide
  have other : ∀ d ∈ ['\n', '\r', '#', '[', ']', '"', '\'', '=', '.', '\uFEFF', ' ', '\t'],
      c ≠ d := by
    rintro d mem rfl
    exact List.any_eq_false.1 none c mem h
  refine ⟨?_, fun d mem => other d (by simp at mem ⊢; tauto)⟩
  rw [isBlank, Bool.or_eq_false_iff, beq_eq_false_iff_ne, beq_eq_false_iff_ne]
  exact ⟨other ' ' (by simp), other '\t' (by simp)⟩

namespace IsBare

theorem exists_cons (bare : IsBare key) :
    ∃ c cs, key.toList = c :: cs ∧ isKeyChar c = true := by
  obtain ⟨c, cs, eq⟩ := List.exists_cons_of_ne_nil bare.nonempty
  exact ⟨c, cs, eq, bare.plain c (eq ▸ List.mem_cons_self)⟩

theorem notMem (bare : IsBare key) : '\r' ∉ key.toList := fun mem =>
  (ne_of_isKeyChar (bare.plain _ mem)).2 '\r' (by decide) rfl

theorem key?_append (bare : IsBare key) (stop : ∀ c ∈ rest.head?, isKeyChar c = false) :
    key? (key.toList ++ rest) = some (key, rest) := by
  have unquoted : lineText? (key.toList ++ rest) = none := by
    obtain ⟨d, ds, eq, plain⟩ := bare.exists_cons
    have other := (ne_of_isKeyChar plain).2
    rw [eq, List.cons_append, lineText?.eq_def]
    split
    · rename_i eq
      exact absurd (List.cons.inj eq).1 (other _ (by decide))
    · rename_i eq
      exact absurd (List.cons.inj eq).1 (other _ (by decide))
    · rfl
  have nothing : rest.takeWhile isKeyChar = [] ∧ rest.dropWhile isKeyChar = rest := by
    cases rest with
    | nil => exact ⟨rfl, rfl⟩
    | cons c rest =>
        have other := stop c rfl
        exact ⟨List.takeWhile_cons_of_neg (by simp [other]),
          List.dropWhile_cons_of_neg (by simp [other])⟩
  have word : bareKey? (key.toList ++ rest) = some (key.toList, rest) := by
    rw [bareKey?, List.takeWhile_append_of_pos bare.plain, List.dropWhile_append_of_pos bare.plain,
      nothing.1, nothing.2, List.append_nil]
    split
    · rename_i empty
      exact absurd empty bare.nonempty
    · rfl
  rw [key?, unquoted, word]
  show some (String.ofList key.toList, rest) = _
  rw [String.ofList_toList]

/-- A key alone is read up to what stands behind it and the blanks there. -/
theorem keyPath?_append (bare : IsBare key) (stop : ∀ c ∈ rest.head?, isKeyChar c = false)
    (mark : ∀ s, skipBlanks rest ≠ '.' :: s) :
    keyPath? (key.toList ++ rest) = some ([key], skipBlanks rest) := by
  have start : skipBlanks (key.toList ++ rest) = key.toList ++ rest := by
    obtain ⟨c, cs, eq, plain⟩ := bare.exists_cons
    have unblank := (ne_of_isKeyChar plain).1
    rw [eq, List.cons_append, skipBlanks, List.dropWhile_cons_of_neg (by simp [unblank])]
  show keyRow? (78 + 1) (key.toList ++ rest) = _
  rw [keyRow?, start, bare.key?_append stop]
  simp only [Option.bind_eq_bind, Option.bind_some]
  rfl

end IsBare

/-! ## Lines -/

/-- A line starts here: there is no blank, line end or comment before it, and no mark. -/
def StartsLine (t : List Char) : Prop :=
  ∃ c cs, t = c :: cs ∧ isBlank c = false ∧ c ≠ '\n' ∧ c ≠ '#' ∧ c ≠ '\uFEFF'

/-- Some characters are read as a line. -/
structure SpellsLine (l : Line) (t : List Char) : Prop where
  read : ∀ rest, line? (t ++ '\n' :: rest) = some (l, rest)
  first : StartsLine t
  clean : '\r' ∉ t

/-- The line of a header. -/
def header (name : String) : List Char :=
  '[' :: name.toList ++ [']']

/-- The line of an assignment. -/
def assignment (key : String) (t : List Char) : List Char :=
  key.toList ++ ' ' :: '=' :: ' ' :: t

theorem spellsLine_header {name : String} (bare : IsBare name) :
    SpellsLine (.header [name]) (header name) where
  read rest := by
    have path : keyPath? (name.toList ++ ']' :: '\n' :: rest) =
        some ([name], ']' :: '\n' :: rest) :=
      bare.keyPath?_append (by simp [isKeyChar]) (by simp [skipBlanks, isBlank])
    have text : header name ++ '\n' :: rest = '[' :: (name.toList ++ ']' :: '\n' :: rest) := by
      simp [header]
    rw [text, line?.eq_def]
    split
    · rename_i s eq
      obtain ⟨c, cs, shape, plain⟩ := bare.exists_cons
      rw [shape] at eq
      exact absurd (List.cons.inj (List.cons.inj eq).2).1 ((ne_of_isKeyChar plain).2 _ (by decide))
    · rename_i s other eq
      cases eq
      rw [path]
      rfl
    · rename_i one
      exact absurd rfl (one _)
  first := ⟨'[', _, rfl, by decide⟩
  clean := by simp [header, bare.notMem]

/-- An assignment is read if its value is, up to the end of the line. -/
theorem line?_assignment (bare : IsBare key) :
    line? (assignment key t ++ '\n' :: rest) =
      (value? depthBound (skipBlanks (t ++ '\n' :: rest))).bind fun r =>
        (lineEnd? r.2).map (Line.assignment [key] r.1, ·) := by
  have path : keyPath? (key.toList ++ ' ' :: '=' :: ' ' :: (t ++ '\n' :: rest)) =
      some ([key], '=' :: ' ' :: (t ++ '\n' :: rest)) :=
    bare.keyPath?_append (by simp [isKeyChar]) (by simp [skipBlanks, isBlank])
  have text : assignment key t ++ '\n' :: rest =
      key.toList ++ ' ' :: '=' :: ' ' :: (t ++ '\n' :: rest) := by
    simp [assignment]
  have unheaded : ∀ s, key.toList ++ ' ' :: '=' :: ' ' :: (t ++ '\n' :: rest) ≠ '[' :: s := by
    intro s eq
    obtain ⟨c, cs, shape, plain⟩ := bare.exists_cons
    rw [shape] at eq
    exact (ne_of_isKeyChar plain).2 _ (by decide) (List.cons.inj eq).1
  rw [text, line?.eq_def]
  split
  · rename_i eq
    exact absurd eq (unheaded _)
  · rename_i eq
    exact absurd eq (unheaded _)
  · rw [Toml.assignment?, path]
    show ((value? depthBound (skipBlanks (t ++ '\n' :: rest))).bind fun r =>
      some (([key], r.1), r.2)).bind (fun r => (lineEnd? r.2).bind fun rest =>
        some (Line.assignment r.1.1 r.1.2, rest)) = _
    cases value? depthBound (skipBlanks (t ++ '\n' :: rest)) with
    | none => rfl
    | some r =>
        show (lineEnd? r.2).bind (fun rest => some (Line.assignment [key] r.1, rest)) =
          (lineEnd? r.2).map (Line.assignment [key] r.1, ·)
        cases lineEnd? r.2 <;> rfl

theorem skipBlanks_append (first : ∃ c cs, t = c :: cs ∧ isBlank c = false) :
    skipBlanks (t ++ rest) = t ++ rest := by
  obtain ⟨c, cs, rfl, unblank⟩ := first
  rw [List.cons_append, skipBlanks, List.dropWhile_cons_of_neg (by simp [unblank])]

theorem startsLine_assignment (bare : IsBare key) : StartsLine (assignment key t) := by
  obtain ⟨c, cs, shape, plain⟩ := bare.exists_cons
  obtain ⟨unblank, other⟩ := ne_of_isKeyChar plain
  refine ⟨c, cs ++ ' ' :: '=' :: ' ' :: t, by rw [assignment, shape]; rfl, unblank, ?_, ?_, ?_⟩
  · exact other _ (by decide)
  · exact other _ (by decide)
  · exact other _ (by decide)

theorem notMem_assignment (bare : IsBare key) (clean : '\r' ∉ t) : '\r' ∉ assignment key t := by
  simp [assignment, bare.notMem, clean]

theorem spellsLine_assignment (bare : IsBare key) (spells : Spells v t) :
    SpellsLine (.assignment [key] v) (assignment key t) where
  read rest := by
    rw [line?_assignment bare, skipBlanks_append spells.first, spells.read]
    rfl
  first := startsLine_assignment bare
  clean := notMem_assignment bare spells.clean

/-! ## What is written -/

/-- A value is written as some characters.  An integer may be out of range. -/
inductive Writes : Toml → List Char → Prop
  | integer (n : Int) : Writes (.integer n) (ofInt n)
  | other {v : Toml} {t : List Char} (spells : Spells v t) (noInteger : ∀ n, v ≠ .integer n) :
      Writes v t

/-- A line is written as some characters. -/
inductive WritesLine : Line → List Char → Prop
  | header {name : String} (bare : IsBare name) : WritesLine (.header [name]) (header name)
  | assignment {key : String} {v : Toml} {t : List Char} (bare : IsBare key) (writes : Writes v t) :
      WritesLine (.assignment [key] v) (assignment key t)

/-- What a line assigns is no integer out of range. -/
def Line.InRange (l : Line) : Prop :=
  ∀ path n, l = .assignment path (.integer n) → integerMin ≤ n ∧ n ≤ integerMax

namespace WritesLine

variable {l : Line}

theorem startsLine (writes : WritesLine l t) : StartsLine t := by
  cases writes with
  | header bare => exact (spellsLine_header bare).first
  | assignment bare _ => exact startsLine_assignment bare

theorem notMem (writes : WritesLine l t) : '\r' ∉ t := by
  cases writes with
  | header bare => exact (spellsLine_header bare).clean
  | assignment bare writes =>
      refine notMem_assignment bare ?_
      cases writes with
      | integer n => exact notMem_ofInt n
      | other spells => exact spells.clean

theorem spellsLine (writes : WritesLine l t) (range : l.InRange) : SpellsLine l t := by
  cases writes with
  | header bare => exact spellsLine_header bare
  | assignment bare writes =>
      refine spellsLine_assignment bare ?_
      cases writes with
      | integer n => exact spells_ofInt (range _ n rfl)
      | other spells => exact spells

/-- An integer out of range cannot be read. -/
theorem line?_eq_none (writes : WritesLine l t) (out : ¬ l.InRange) (rest : List Char) :
    line? (t ++ '\n' :: rest) = none := by
  cases writes with
  | header bare => exact absurd (fun _ _ => nofun) out
  | assignment bare writes =>
      cases writes with
      | integer n =>
          have large : ¬ (integerMin ≤ n ∧ n ≤ integerMax) := by
            intro range
            refine out fun path m eq => ?_
            cases eq
            exact range
          rw [line?_assignment bare, skipBlanks_append (exists_cons_ofInt n), value?_ofInt,
            inRange?, if_neg large]
          rfl
      | other spells noInteger =>
          refine absurd (fun path n eq => ?_) out
          cases eq
          exact absurd rfl (noInteger n)

end WritesLine

/-! ## Files -/

/-- The text of some lines. -/
def joinLines (ts : List (List Char)) : List Char :=
  ts.flatMap (· ++ ['\n'])

variable {ls : List Line} {ts : List (List Char)}

theorem joinLines_cons : joinLines (t :: ts) = t ++ '\n' :: joinLines ts := by
  simp [joinLines]

theorem gap_append (first : StartsLine t) : gap (t ++ s) = t ++ s := by
  obtain ⟨c, cs, rfl, unblank, feed, hash, -⟩ := first
  rw [List.cons_append, gap, skipGap, if_neg (by simp [unblank, feed]), if_neg hash]

theorem linesWithin?_succ {n : Nat} (first : StartsLine t) :
    linesWithin? (n + 1) (t ++ '\n' :: s) = (line? (t ++ '\n' :: s)).bind fun (l, s) =>
      (linesWithin? n s).map (l :: ·) := by
  rw [linesWithin?, gap_append first]
  split
  · rename_i empty
    simp at empty
  · cases line? (t ++ '\n' :: s) with
    | none => rfl
    | some r =>
        show (linesWithin? n r.2).bind (fun ls => some (r.1 :: ls)) = (linesWithin? n r.2).map _
        cases linesWithin? n r.2 <;> rfl

/-- **Lines are read one after another**, and one that cannot be read spoils them all. -/
theorem linesWithin?_joinLines {n : Nat} (writes : List.Forall₂ WritesLine ls ts)
    (enough : (joinLines ts).length ≤ n) :
    ((∀ l ∈ ls, l.InRange) → linesWithin? n (joinLines ts) = some ls) ∧
      ((∃ l ∈ ls, ¬ l.InRange) → linesWithin? n (joinLines ts) = none) := by
  induction writes generalizing n with
  | nil =>
      constructor
      · rintro -
        cases n <;> rfl
      · rintro ⟨l, mem, -⟩
        cases mem
  | @cons l t ls ts first _ ih =>
      rw [joinLines_cons, List.length_append, List.length_cons] at enough
      obtain ⟨n, rfl⟩ := Nat.exists_eq_succ_of_ne_zero (show n ≠ 0 by omega)
      obtain ⟨reads, fails⟩ := ih (show (joinLines ts).length ≤ n by omega)
      rw [joinLines_cons, linesWithin?_succ first.startsLine]
      constructor
      · intro range
        rw [List.forall_mem_cons] at range
        rw [(first.spellsLine range.1).read, Option.bind_some]
        show (linesWithin? n (joinLines ts)).map (l :: ·) = _
        rw [reads range.2]
        rfl
      · rintro ⟨l', mem, out⟩
        by_cases range : l.InRange
        · rcases List.mem_cons.1 mem with rfl | mem
          · exact absurd range out
          · rw [(first.spellsLine range).read, Option.bind_some]
            show (linesWithin? n (joinLines ts)).map (l :: ·) = _
            rw [fails ⟨l', mem, out⟩]
            rfl
        · rw [first.line?_eq_none range]
          rfl

theorem unifyLines_eq_self (clean : '\r' ∉ s) : unifyLines s = s := by
  induction s with
  | nil => rfl
  | cons c s ih =>
      rw [List.mem_cons, not_or] at clean
      rw [unifyLines.eq_def]
      split
      · rename_i eq
        cases eq
      · rename_i eq
        exact absurd (List.cons.inj eq).1.symm clean.1
      · rename_i eq
        cases eq
        rw [ih clean.2]

theorem dropMark_joinLines (writes : List.Forall₂ WritesLine ls ts) :
    dropMark (joinLines ts) = joinLines ts := by
  cases writes with
  | nil => rfl
  | cons first _ =>
      obtain ⟨c, cs, rfl, -, -, -, mark⟩ := first.startsLine
      rw [joinLines_cons, List.cons_append, dropMark.eq_def]
      split
      · rename_i eq
        exact absurd (List.cons.inj eq).1 mark
      · rfl

/-- No line end of written lines has to be unified. -/
theorem unifyLines_joinLines (writes : List.Forall₂ WritesLine ls ts) :
    unifyLines (joinLines ts) = joinLines ts := by
  refine unifyLines_eq_self ?_
  induction writes with
  | nil => exact List.not_mem_nil
  | cons first _ ih => simpa [joinLines_cons, first.notMem] using ih

namespace Sheet

/-- A plain file as it is written, line by line. -/
structure Written (f : Sheet) (s : List Char) : Prop where
  distinct : f.Distinct
  lines : ∃ ts, List.Forall₂ WritesLine f.lines ts ∧ s = joinLines ts

variable {f : Sheet}

/-- **A written file says what its lines say**, if all its integers are in range. -/
theorem Written.parse?_eq_some (written : f.Written s) (range : ∀ l ∈ f.lines, l.InRange) :
    parse? s = some f.toToml := by
  obtain ⟨distinct, ts, writes, rfl⟩ := written
  rw [parse?, dropMark_joinLines writes, unifyLines_joinLines writes, lines?,
    (linesWithin?_joinLines writes (Nat.le_refl _)).1 range]
  have built := ofLines?_lines distinct
  obtain ⟨t, lines, eq⟩ := Option.map_eq_some_iff.1 built
  rw [Option.bind_eq_bind, Option.bind_some, lines, ← eq]
  rfl

/-- **An integer out of range spoils a file.** -/
theorem Written.parse?_eq_none (written : f.Written s) (out : ∃ l ∈ f.lines, ¬ l.InRange) :
    parse? s = none := by
  obtain ⟨-, ts, writes, rfl⟩ := written
  rw [parse?, dropMark_joinLines writes, unifyLines_joinLines writes, lines?,
    (linesWithin?_joinLines writes (Nat.le_refl _)).2 out]
  rfl

end Sheet

end IncludeAtlas.Toml
