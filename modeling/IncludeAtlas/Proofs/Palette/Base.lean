import IncludeAtlas.Palette
import IncludeAtlas.Proofs.Json.Blanks
import IncludeAtlas.Proofs.Json.Number
import Mathlib.Data.List.DropRight

/-!
# The grammar of base colors

A base color is three channels with commas between them.  A channel is a number of at most 255
in decimal: white space around it, a plus sign and zeros in front of it have no meaning, and no
row of digits is too long to be judged.

## Main Definitions

* `Palette.CutAtCommas`: the pieces of a text between its commas
* `Blank.Trims`: a text without the white space around it
* `Palette.Denotes`: a piece that stands for a channel
* `Palette.Judges`: what a text comes to as a base color
* `Palette.ParsesExactly`: a way of reading base colors that follows the grammar
* `Rgb.padded`: a color with white space around its channels

## Main Results

* `Natural.readDigits_eq_ok_iff`: digits are read as their value as long as it fits
* `Palette.parseChannel_eq_ok_iff`: a channel is what its grammar says
* `Palette.parses_exactly`: base colors are what their grammar says

## What is load-bearing

The value of a row of digits grows with every digit, so the first digit at which it is too large
settles that the whole row is (`Natural.le_ofDigitChars`).
-/

namespace IncludeAtlas

/-! ## Numbers within a bound -/

namespace Natural

variable {bound value n : Nat} {s ds : List Char} {c : Char}

theorem digit?_eq_some_iff {d : Nat} :
    digit? c = some d ↔ Digit.isDecimal c = true ∧ c.toNat - '0'.toNat = d := by
  simp [digit?, Digit.isDecimal]

theorem digit?_eq_none_iff : digit? c = none ↔ Digit.isDecimal c = false := by
  simp [digit?, Digit.isDecimal]

/-- Digits only add to the value of those before them. -/
theorem le_ofDigitChars (ds : List Char) (value : Nat) : value ≤ Nat.ofDigitChars 10 ds value := by
  induction ds generalizing value with
  | nil => exact le_rfl
  | cons c ds ih =>
      rw [Nat.ofDigitChars_cons]
      exact le_trans (by omega) (ih (10 * value + (c.toNat - '0'.toNat)))

/-- **Digits are read as their value** as long as it fits. -/
theorem readDigits_eq_ok_iff (fits : value ≤ bound) :
    readDigits bound value ds = .ok n ↔
      (∀ c ∈ ds, Digit.isDecimal c = true) ∧ Nat.ofDigitChars 10 ds value = n ∧ n ≤ bound := by
  induction ds generalizing value with
  | nil =>
      simp only [readDigits, Except.ok.injEq, List.not_mem_nil, false_imp_iff, implies_true,
        true_and]
      constructor
      · rintro rfl
        exact ⟨rfl, fits⟩
      · exact And.left
  | cons c ds ih =>
      rw [readDigits, List.forall_mem_cons, Nat.ofDigitChars_cons, Nat.mul_comm 10]
      cases found : digit? c with
      | none => simp [digit?_eq_none_iff.1 found]
      | some d =>
          obtain ⟨digit, rfl⟩ := digit?_eq_some_iff.1 found
          simp only [digit, true_and]
          split_ifs with large
          · -- what is too large after this digit stays so
            have grows := le_ofDigitChars ds (value * 10 + (c.toNat - '0'.toNat))
            refine iff_of_false nofun ?_
            rintro ⟨-, rfl, le⟩
            omega
          · exact ih (Nat.not_lt.1 large)

/-- A number of at most `bound` is a row of digits with such a value, perhaps behind a plus
sign. -/
theorem read_eq_ok_iff :
    read bound s = .ok n ↔ ∃ ds, (s = ds ∨ s = '+' :: ds) ∧ Json.IsDigits ds ∧
      Nat.ofDigitChars 10 ds 0 = n ∧ n ≤ bound := by
  have sign : Digit.isDecimal '+' = false := rfl
  rw [read.eq_def]
  split
  · simp [Json.IsDigits]
  · refine iff_of_false nofun ?_
    rintro ⟨ds, rfl | eq, digits, -, -⟩
    · cases digits.2 '+' List.mem_cons_self
    · cases eq
      exact digits.1 rfl
  · rename_i ds more
    rw [readDigits_eq_ok_iff (Nat.zero_le bound)]
    constructor
    · rintro ⟨digits, value, le⟩
      exact ⟨ds, .inr rfl, ⟨fun eq => more eq, digits⟩, value, le⟩
    · rintro ⟨ds', rfl | eq, digits, value, le⟩
      · cases digits.2 '+' List.mem_cons_self
      · cases eq
        exact ⟨digits.2, value, le⟩
  · rename_i nonempty _ unsigned
    rw [readDigits_eq_ok_iff (Nat.zero_le bound)]
    constructor
    · rintro ⟨digits, value, le⟩
      exact ⟨s, .inl rfl, ⟨nonempty, digits⟩, value, le⟩
    · rintro ⟨ds', rfl | eq, digits, value, le⟩
      · exact ⟨digits.2, value, le⟩
      · exact absurd eq (unsigned ds')

end Natural

/-! ## White space around a text -/

namespace Blank

/-- Nothing but white space. -/
def IsPadding (s : List Char) : Prop :=
  ∀ c ∈ s, isBlank c = true

instance (s : List Char) : Decidable (IsPadding s) :=
  decidable_of_iff (s.all isBlank = true) List.all_eq_true

/-- A text without the white space around it. -/
structure Trims (s core : List Char) : Prop where
  padded : ∃ left right, IsPadding left ∧ IsPadding right ∧ s = left ++ core ++ right
  first : ∀ c ∈ core.head?, isBlank c = false
  last : ∀ c ∈ core.getLast?, isBlank c = false

variable {s core left right : List Char}

theorem trimRight_append (h : IsPadding right) : trimRight (s ++ right) = trimRight s := by
  rw [trimRight, trimRight, List.reverse_append, List.dropWhile_append_of_pos]
  exact fun c mem => h c (List.mem_reverse.1 mem)

/-- White space at the end is all that is lost there. -/
theorem exists_append_trimRight (s : List Char) :
    ∃ right, IsPadding right ∧ s = trimRight s ++ right := by
  refine ⟨(s.reverse.takeWhile isBlank).reverse, ?_, ?_⟩
  · intro c mem
    exact List.mem_takeWhile_imp (List.mem_reverse.1 mem)
  · rw [trimRight, ← List.reverse_append, List.takeWhile_append_dropWhile, List.reverse_reverse]

theorem trimRight_eq_self (last : ∀ c ∈ core.getLast?, isBlank c = false) :
    trimRight core = core := by
  have kept : core.reverse.dropWhile isBlank = core.reverse := by
    cases shape : core.reverse with
    | nil => rfl
    | cons c cs =>
        refine List.dropWhile_cons_of_neg ?_
        rw [last c (by rw [← List.head?_reverse, shape]; rfl)]
        exact Bool.false_ne_true
  rw [trimRight, kept, List.reverse_reverse]

theorem getLast?_trimRight : ∀ c ∈ (trimRight s).getLast?, isBlank c = false := by
  intro c mem
  have stop := List.head?_dropWhile_not isBlank s.reverse
  rw [trimRight, List.getLast?_reverse] at mem
  rw [mem] at stop
  exact stop

/-- **Trimming leaves the text without the white space around it.** -/
theorem trim_eq_iff : trim s = core ↔ Trims s core := by
  constructor
  · rintro rfl
    obtain ⟨right, blank, eq⟩ := exists_append_trimRight (s.dropWhile isBlank)
    refine ⟨⟨s.takeWhile isBlank, right, fun c => List.mem_takeWhile_imp, blank, ?_⟩, ?_,
      getLast?_trimRight⟩
    · rw [trim, List.append_assoc, ← eq, List.takeWhile_append_dropWhile]
    · intro c mem
      have stop := List.head?_dropWhile_not isBlank s
      rw [eq, List.head?_append_of_ne_nil] at stop
      · rw [show (trimRight (s.dropWhile isBlank)).head? = some c from mem] at stop
        exact stop
      · rintro empty
        rw [trim, empty] at mem
        cases mem
  · rintro ⟨⟨left, right, blankLeft, blankRight, rfl⟩, first, last⟩
    rw [trim, List.append_assoc, List.dropWhile_append_of_pos blankLeft]
    cases core with
    | nil =>
        rw [List.nil_append, List.dropWhile_eq_nil_iff.2 blankRight]
        rfl
    | cons c core =>
        have solid : ¬ isBlank c = true := by
          rw [first c rfl]
          exact Bool.false_ne_true
        rw [List.cons_append, List.dropWhile_cons_of_neg solid, ← List.cons_append,
           trimRight_append blankRight, trimRight_eq_self last]

end Blank

/-! ## Pieces -/

theorem Cut.intercalate_pieces {α : Type} [DecidableEq α] (separator : α) (s : List α) :
    [separator].intercalate (pieces separator s) = s := by
  induction s with
  | nil => rfl
  | cons c cs ih =>
      rw [pieces]
      split_ifs with eq
      · obtain ⟨p, rest, cut⟩ := List.exists_cons_of_ne_nil (pieces_ne_nil separator cs)
        rw [cut] at ih ⊢
        rw [List.intercalate_cons_cons, ih, eq]
        rfl
      · obtain ⟨p, rest, cut⟩ := List.exists_cons_of_ne_nil (pieces_ne_nil separator cs)
        rw [cut] at ih ⊢
        cases rest with
        | nil =>
            rw [List.intercalate_singleton] at ih ⊢
            rw [ih]
        | cons q rest =>
            rw [List.intercalate_cons_cons] at ih ⊢
            rw [List.cons_append, List.cons_append, ih]

namespace Palette

open Blank (Trims)

/-- The pieces of a text between its commas. -/
structure CutAtCommas (s : List Char) (ps : List (List Char)) : Prop where
  nonempty : ps ≠ []
  joined : [','].intercalate ps = s
  whole : ∀ p ∈ ps, ',' ∉ p

/-- A piece that stands for a channel: digits with a value of at most 255, perhaps behind a plus
sign, and perhaps with white space around them. -/
def Denotes (piece : List Char) (n : UInt8) : Prop :=
  ∃ core ds, Trims piece core ∧ (core = ds ∨ core = '+' :: ds) ∧ Json.IsDigits ds ∧
    Nat.ofDigitChars 10 ds 0 = n.toNat

/-- What a text comes to as a base color.  The number of pieces is judged first, and then the
pieces in their order. -/
inductive Judges (s : String) : Except PaletteError Rgb → Prop
  | base {r g b : List Char} {c : Rgb} (cut : CutAtCommas s.toList [r, g, b])
      (red : Denotes r c.red) (green : Denotes g c.green) (blue : Denotes b c.blue) :
      Judges s (.ok c)
  | count {ps : List (List Char)} (cut : CutAtCommas s.toList ps) (other : ps.length ≠ 3) :
      Judges s (.error (.wrongCount s ps.length))
  | component {before after : List (List Char)} {piece core : List Char} {fault : Natural.Fault}
      (cut : CutAtCommas s.toList (before ++ piece :: after))
      (three : (before ++ piece :: after).length = 3)
      (good : ∀ p ∈ before, ∃ n, Denotes p n) (bad : ¬ ∃ n, Denotes piece n)
      (trims : Trims piece core) (found : Natural.read 255 core = .error fault) :
      Judges s (.error (.badComponent s (String.ofList core) fault))

end Palette

/-- A color with white space around its channels, before and behind each of them. -/
def Rgb.padded (c : Rgb) (red green blue : List Char × List Char) : String :=
  let channel (n : UInt8) (around : List Char × List Char) :=
    around.1 ++ Natural.digits n.toNat ++ around.2
  String.ofList ([','].intercalate [channel c.red red, channel c.green green, channel c.blue blue])

/-- A color is written with a space behind each comma. -/
theorem Rgb.spec_eq_padded (c : Rgb) : c.spec = c.padded ([], []) ([' '], []) ([' '], []) := by
  rw [← String.toList_inj]
  simp [spec, padded, Natural.text]

namespace Palette

open Blank (IsPadding Trims)

variable {s : String} {ps : List (List Char)} {piece core : List Char} {n : UInt8}

theorem cutAtCommas_pieces (s : List Char) : CutAtCommas s (Cut.pieces ',' s) :=
  ⟨Cut.pieces_ne_nil ',' s, Cut.intercalate_pieces ',' s, fun _ => Cut.notMem_of_mem_pieces⟩

theorem CutAtCommas.pieces_eq {s : List Char} (h : CutAtCommas s ps) : Cut.pieces ',' s = ps := by
  rw [← h.joined, Cut.pieces_intercalate h.nonempty h.whole]

/-- **A channel is what its grammar says.** -/
theorem parseChannel_eq_ok_iff :
    parseChannel s (Blank.trim piece) = .ok n ↔ Denotes piece n := by
  have small : n.toNat ≤ 255 := Nat.le_of_lt_succ n.toNat_lt
  have trimmed : Trims piece (Blank.trim piece) := Blank.trim_eq_iff.1 rfl
  have asNatural : parseChannel s (Blank.trim piece) = .ok n ↔
      Natural.read 255 (Blank.trim piece) = .ok n.toNat := by
    rw [parseChannel]
    cases found : Natural.read 255 (Blank.trim piece) with
    | error fault => exact iff_of_false nofun nofun
    | ok m =>
        obtain ⟨-, -, -, -, le⟩ := Natural.read_eq_ok_iff.1 found
        simp only [Except.ok.injEq]
        constructor
        · rintro rfl
          simp; omega
        · rintro rfl
          simp
  rw [asNatural, Natural.read_eq_ok_iff]
  constructor
  · rintro ⟨ds, core, digits, value, -⟩
    exact ⟨_, ds, trimmed, core, digits, value⟩
  · rintro ⟨core, ds, trims, sign, digits, value⟩
    rw [Blank.trim_eq_iff.2 trims]
    exact ⟨ds, sign, digits, value, small⟩

/-- A channel that its grammar does not have is refused with the piece. -/
theorem exists_parseChannel_eq_error (bad : ¬ ∃ n, Denotes piece n) :
    ∃ fault, Natural.read 255 (Blank.trim piece) = .error fault ∧
      parseChannel s (Blank.trim piece) =
        .error (.badComponent s (String.ofList (Blank.trim piece)) fault) := by
  cases found : Natural.read 255 (Blank.trim piece) with
  | error fault => exact ⟨fault, rfl, by rw [parseChannel, found]⟩
  | ok m =>
      refine absurd ⟨m.toUInt8, parseChannel_eq_ok_iff (s := s).1 ?_⟩ bad
      rw [parseChannel, found]

theorem notMem_padded (n : UInt8) {left right : List Char} (hl : IsPadding left)
    (hr : IsPadding right) : ',' ∉ left ++ Natural.digits n.toNat ++ right := by
  have digits : Json.IsDigits (Natural.digits n.toNat) := isDigits_toDigits n.toNat
  simp only [List.mem_append, not_or]
  refine ⟨⟨fun mem => ?_, fun mem => ?_⟩, fun mem => ?_⟩
  · cases hl ',' mem
  · cases digits.2 ',' mem
  · cases hr ',' mem

/-! ## Base colors -/

variable {r g b : List Char} {o : Except PaletteError Rgb} {c : Rgb}

theorem parseBase_of_length_ne (cut : CutAtCommas s.toList ps) (other : ps.length ≠ 3) :
    parseBase s = .error (.wrongCount s ps.length) := by
  rw [parseBase, cut.pieces_eq]
  split
  · rename_i three
    have := congrArg List.length three
    rw [List.length_map] at this
    exact absurd this other
  · rw [List.length_map]

/-- Three pieces are read one after the other. -/
theorem parseBase_of_three (cut : CutAtCommas s.toList [r, g, b]) :
    parseBase s = (parseChannel s (Blank.trim r)).bind fun r =>
      (parseChannel s (Blank.trim g)).bind fun g =>
        (parseChannel s (Blank.trim b)).bind fun b => .ok ⟨r, g, b⟩ := by
  rw [parseBase, cut.pieces_eq]
  rfl

theorem Judges.parseBase_eq (h : Judges s o) : parseBase s = o := by
  cases h with
  | base cut red green blue =>
      rw [parseBase_of_three cut, parseChannel_eq_ok_iff.2 red, parseChannel_eq_ok_iff.2 green,
        parseChannel_eq_ok_iff.2 blue]
      rfl
  | count cut other => exact parseBase_of_length_ne cut other
  | @component before after piece core fault cut three good bad trims found =>
      have refused : parseChannel s (Blank.trim piece) =
          .error (.badComponent s (String.ofList core) fault) := by
        rw [parseChannel, Blank.trim_eq_iff.2 trims, found]
      have passed : ∀ p ∈ before, ∃ n, parseChannel s (Blank.trim p) = .ok n := fun p mem =>
        (good p mem).imp fun n denotes => parseChannel_eq_ok_iff.2 denotes
      -- the bad piece is one of three, and those before it are read
      rcases before with _ | ⟨r, _ | ⟨g, _ | ⟨b, before⟩⟩⟩
      · obtain ⟨g, b, rfl⟩ := List.length_eq_two.1 (Nat.succ.inj three)
        rw [parseBase_of_three cut, refused]
        rfl
      · obtain ⟨b, rfl⟩ := List.length_eq_one_iff.1 (Nat.succ.inj (Nat.succ.inj three))
        obtain ⟨n, first⟩ := passed r List.mem_cons_self
        rw [parseBase_of_three cut, first, refused]
        rfl
      · obtain rfl := List.length_eq_zero_iff.1 (Nat.succ.inj (Nat.succ.inj (Nat.succ.inj three)))
        obtain ⟨n, first⟩ := passed r List.mem_cons_self
        obtain ⟨m, second⟩ := passed g (List.mem_cons_of_mem r List.mem_cons_self)
        rw [parseBase_of_three cut, first, second, refused]
        rfl
      · simp at three

/-- A piece among three before which all are good is good, or it is what is wrong. -/
theorem exists_judges_of_bad {before after : List (List Char)}
    (cut : CutAtCommas s.toList (before ++ piece :: after))
    (three : (before ++ piece :: after).length = 3) (good : ∀ p ∈ before, ∃ n, Denotes p n)
    (bad : ¬ ∃ n, Denotes piece n) : ∃ o, Judges s o := by
  obtain ⟨fault, found, -⟩ := exists_parseChannel_eq_error (s := s) bad
  exact ⟨_, .component cut three good bad (Blank.trim_eq_iff.1 rfl) found⟩

/-- Every text comes to something. -/
theorem exists_judges (s : String) : ∃ o, Judges s o := by
  have cut := cutAtCommas_pieces s.toList
  by_cases three : (Cut.pieces ',' s.toList).length = 3
  · obtain ⟨r, g, b, eq⟩ := List.length_eq_three.1 three
    rw [eq] at cut
    by_cases red : ∃ n, Denotes r n
    · by_cases green : ∃ n, Denotes g n
      · by_cases blue : ∃ n, Denotes b n
        · obtain ⟨red, isRed⟩ := red
          obtain ⟨green, isGreen⟩ := green
          obtain ⟨blue, isBlue⟩ := blue
          have judged : Judges s (.ok ⟨red, green, blue⟩) := .base cut isRed isGreen isBlue
          exact ⟨_, judged⟩
        · have good : ∀ p ∈ [r, g], ∃ n, Denotes p n := by simp [red, green]
          exact exists_judges_of_bad cut rfl good blue
      · have good : ∀ p ∈ [r], ∃ n, Denotes p n := by simp [red]
        exact exists_judges_of_bad cut rfl good green
    · exact exists_judges_of_bad cut rfl (List.forall_mem_nil _) red
  · exact ⟨_, .count cut three⟩

/-- What a text comes to is what reading it gives. -/
theorem parseBase_eq_iff : parseBase s = o ↔ Judges s o := by
  constructor
  · rintro rfl
    obtain ⟨o, judged⟩ := exists_judges s
    rwa [judged.parseBase_eq]
  · exact Judges.parseBase_eq

/-- A channel that is written stands for itself, whatever white space is around it. -/
theorem denotes_padded (n : UInt8) {left right : List Char} (hl : IsPadding left)
    (hr : IsPadding right) : Denotes (left ++ Natural.digits n.toNat ++ right) n := by
  have digits : Json.IsDigits (Natural.digits n.toNat) := isDigits_toDigits n.toNat
  have solid : ∀ c ∈ Natural.digits n.toNat, Blank.isBlank c = false := fun c mem =>
    (Json.plain_of_isDecimal (digits.2 c mem)).2
  exact ⟨_, _, ⟨⟨left, right, hl, hr, rfl⟩, fun c mem => solid c (List.mem_of_mem_head? mem),
    fun c mem => solid c (List.mem_of_getLast? mem)⟩, .inl rfl, digits,
    Nat.ofDigitChars_toDigits (by decide) (by decide)⟩

/-- The bad piece that stands first is named, also if one behind it is worse. -/
example : parseBase "+1, 300,red" = .error (.badComponent "+1, 300,red" "300" .tooLarge) := by
  cbv

theorem parseBase_padded (c : Rgb) {red green blue : List Char × List Char}
    (hr : IsPadding red.1 ∧ IsPadding red.2) (hg : IsPadding green.1 ∧ IsPadding green.2)
    (hb : IsPadding blue.1 ∧ IsPadding blue.2) : parseBase (c.padded red green blue) = .ok c := by
  refine Judges.parseBase_eq (.base ⟨List.cons_ne_nil _ _, String.toList_ofList.symm, ?_⟩
    (denotes_padded c.red hr.1 hr.2) (denotes_padded c.green hg.1 hg.2)
    (denotes_padded c.blue hb.1 hb.2))
  rw [List.forall_mem_cons, List.forall_mem_cons, List.forall_mem_singleton]
  exact ⟨notMem_padded c.red hr.1 hr.2, notMem_padded c.green hg.1 hg.2,
    notMem_padded c.blue hb.1 hb.2⟩

/-- A way of reading base colors that follows the grammar, names what is wrong with every other
text, and reads back what is written. -/
structure ParsesExactly (parse : String → Except PaletteError Rgb) : Prop where
  /-- A text is read as what it comes to, which can be an error. -/
  judged : ∀ s o, parse s = o ↔ Judges s o
  /-- A wrong number of pieces is reported by that number. -/
  count : ∀ s n, (PaletteError.wrongCount s n).message = "invalid color specification " ++
    Quoted.quote s ++ ": " ++ ("expected 3 components, found " ++ Natural.text n)
  /-- A piece that is no channel is reported in quotes, with what is wrong with it. -/
  component : ∀ s part fault, (PaletteError.badComponent s part fault).message =
    "invalid color specification " ++ Quoted.quote s ++ ": " ++
      ("component " ++ Quoted.quote part ++ ": " ++ fault.message)
  /-- A color is written with a space behind each comma. -/
  written : ∀ c : Rgb, c.spec = c.padded ([], []) ([' '], []) ([' '], [])
  /-- It is read back, whatever white space is put around its channels. -/
  readBack : ∀ (c : Rgb) (red green blue : List Char × List Char),
    IsPadding red.1 ∧ IsPadding red.2 → IsPadding green.1 ∧ IsPadding green.2 →
      IsPadding blue.1 ∧ IsPadding blue.2 → parse (c.padded red green blue) = .ok c

/-- **Base colors are what their grammar says**, every other text is refused for what is wrong
with it first, and a color that is written, with any white space around its channels, is read
back. -/
theorem parses_exactly : ParsesExactly parseBase := by
  refine ⟨fun s o => parseBase_eq_iff, fun s n => ?_, fun s part fault => ?_,
    Rgb.spec_eq_padded, fun c red green blue => parseBase_padded c⟩
  · have reason : (PaletteError.wrongCount s n).reason =
        "expected 3 components, found " ++ Natural.text n := by
      unfold PaletteError.reason
      with_reducible_and_instances rfl
    rw [← reason]
    unfold PaletteError.message
    with_reducible rfl
  · have reason : (PaletteError.badComponent s part fault).reason =
        "component " ++ Quoted.quote part ++ ": " ++ fault.message := by
      unfold PaletteError.reason
      with_reducible rfl
    rw [← reason]
    unfold PaletteError.message
    with_reducible rfl

end Palette

namespace Sample

/-- White space beyond ASCII goes around channels as spaces do. -/
theorem parses_ideographic :
    (Blank.IsPadding ['\u3000'] ∧ Blank.IsPadding ['\t', '\u00a0']) ∧
      Palette.parseBase (Rgb.padded ⟨234, 82, 77⟩ (['\u3000'], ['\t', '\u00a0']) ([], [])
        (['\u3000'], ['\t', '\u00a0'])) = .ok ⟨234, 82, 77⟩ := by
  have wide : Blank.IsPadding ['\u3000'] := by decide
  have narrow : Blank.IsPadding ['\t', '\u00a0'] := by decide
  have none : Blank.IsPadding [] := List.forall_mem_nil _
  exact ⟨⟨wide, narrow⟩, Palette.parses_exactly.readBack ⟨234, 82, 77⟩ _ ([], []) _
    ⟨wide, narrow⟩ ⟨none, none⟩ ⟨wide, narrow⟩⟩

end Sample

end IncludeAtlas
